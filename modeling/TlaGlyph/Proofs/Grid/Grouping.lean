import TlaGlyph.Proofs.Grid.Alternation
import TlaGlyph.Proofs.Grid.Spread

namespace TlaGlyph

-- A comment from above ends at the beginning of its row, and one that goes on below begins at the end.
-- A line comment ends its row, but for a block comment without text.
structure Token.Between (before : Row) (token : Token) (after : Row) : Prop where
  closing : token.kind = .comment .closing → before = [] ∧ token.column = 0
  inside : token.kind = .comment .inside → before = [] ∧ after = []
  opening : token.kind = .comment .opening → after = []
  line : token.kind = .comment .line →
    after = [] ∨ ∃ block, after = [block] ∧ block.kind = .comment .whole ∧ block.text = []

namespace Row

def Arranged (row : Row) : Prop :=
  ∀ (before : Row) (token : Token) (after : Row), row = before ++ token :: after →
    token.Between before after

-- No comment from above reaches into the row.
def Outside (row : Row) : Prop :=
  ∀ token ∈ row, token.kind ≠ .comment .closing ∧ token.kind ≠ .comment .inside

section Arranged

variable {row : Row} {token : Token}

theorem arranged_nil : Arranged [] := by
  intro before token after hrow
  simp at hrow

theorem Arranged.cons (h : row.Arranged) (houtside : row.Outside) (htoken : token.Between [] row) :
    Arranged (token :: row) := by
  intro before other after hrow
  cases before with
  | nil =>
      obtain ⟨rfl, rfl⟩ := List.cons.inj hrow
      exact htoken
  | cons first before =>
      obtain ⟨-, rfl⟩ := List.cons.inj hrow
      obtain ⟨hclosing, hinside⟩ := houtside other (by simp)
      obtain ⟨-, -, hopening, hline⟩ := h before other after rfl
      exact ⟨fun hkind => absurd hkind hclosing, fun hkind => absurd hkind hinside, hopening, hline⟩

-- Nothing is asked of a comment that begins and ends on the row.
theorem between_of_whole {before after : Row}
    (h : ∀ kind, token.kind = .comment kind → kind = .whole) : token.Between before after where
  closing := fun hkind => nomatch h _ hkind
  inside := fun hkind => nomatch h _ hkind
  opening := fun hkind => nomatch h _ hkind
  line := fun hkind => nomatch h _ hkind

theorem Arranged.cons_of_whole (h : row.Arranged ∧ row.Outside)
    (hwhole : ∀ kind, token.kind = .comment kind → kind = .whole) :
    Arranged (token :: row) ∧ Outside (token :: row) := by
  refine ⟨h.1.cons h.2 (between_of_whole hwhole), ?_⟩
  rintro other (_ | ⟨_, hother⟩)
  · exact ⟨fun hkind => (nomatch hwhole _ hkind), fun hkind => (nomatch hwhole _ hkind)⟩
  · exact h.2 other hother

-- Anything may end a row, if no comment from above reaches into it.
theorem arranged_singleton (hclosing : token.kind ≠ .comment .closing)
    (hinside : token.kind ≠ .comment .inside) : Arranged [token] ∧ Outside [token] := by
  have hlast : token.Between [] [] :=
    ⟨fun hkind => absurd hkind hclosing, fun hkind => absurd hkind hinside, fun _ => rfl,
      fun _ => .inl rfl⟩
  refine ⟨arranged_nil.cons nofun hlast, ?_⟩
  rintro other (_ | ⟨_, ⟨⟩⟩)
  exact ⟨hclosing, hinside⟩

theorem Scans.arranged {column depth : Nat} {text : Text} (h : Scans column text row depth) :
    row.Arranged ∧ row.Outside := by
  induction h with
  | nil => exact ⟨arranged_nil, nofun⟩
  | plain hgap hplain hrest ih =>
      refine Arranged.cons_of_whole ih fun kind hkind => ?_
      obtain rfl := hkind
      cases hplain.isPlain
  | string hgap htext hrest ih => exact Arranged.cons_of_whole ih nofun
  | broken hgap htext hstop hquote hrest ih => exact Arranged.cons_of_whole ih nofun
  | whole hgap htext hrest ih =>
      exact Arranged.cons_of_whole ih fun kind hkind => (Kind.comment.inj hkind).symm
  | opening hgap hread => exact arranged_singleton nofun nofun
  | @line column gap text rest hgap hline hrest =>
      rcases splitLineComment_cases (column + gap.length) text with
        hwhole | ⟨before, -, body, -, -, -, -, hsplit⟩
      · rw [hwhole]
        exact arranged_singleton nofun nofun
      · rw [hsplit]
        obtain ⟨hblock, houtside⟩ := @arranged_singleton { Token.ofText (.comment .whole) body
          (column + gap.length + (before.length + 2)) with text := [] } nofun nofun
        refine ⟨hblock.cons houtside ⟨nofun, nofun, nofun, fun _ => .inr ⟨_, rfl, rfl, rfl⟩⟩, ?_⟩
        simp [Outside, Token.ofText]

theorem ScansLine.arranged {depth left : Nat} {line : Text} (h : ScansLine depth line row left) :
    row.Arranged := by
  cases h with
  | code hrest => exact hrest.arranged.1
  | closing hdepth htext hrest =>
      exact hrest.arranged.1.cons hrest.arranged.2 ⟨fun _ => ⟨rfl, rfl⟩, nofun, nofun, nofun⟩
  | inside hdepth hne hread =>
      exact arranged_nil.cons nofun ⟨nofun, fun _ => ⟨rfl, rfl⟩, nofun, nofun⟩
  | blank hdepth => exact arranged_nil

end Arranged

section Pieces

variable {row : Row} {depth left : Nat} {line : Text}

-- The comments that go on below go on up to `finish` and leave so many comments open.
def OpensUpTo (finish depth : Nat) (row : Row) : Prop :=
  ∀ token ∈ row, token.kind = .comment .opening →
    token.finish = finish ∧ Comment.read 1 token.text = .unclosed depth

theorem OpensUpTo.cons {start finish : Nat} {token : Token} (h : row.OpensUpTo start depth)
    (hkind : token.kind ≠ .comment .opening) (hfinish : finish = start) :
    OpensUpTo finish depth (token :: row) := by
  rintro other (_ | ⟨_, hother⟩) hopening
  · exact absurd hopening hkind
  · rw [hfinish]
    exact h other hother hopening

theorem Scans.opensUpTo {column : Nat} {text : Text} (h : Scans column text row depth) :
    row.OpensUpTo (column + text.length) depth := by
  induction h with
  | nil => nofun
  | plain hgap hplain hrest ih =>
      refine ih.cons ?_ (by simp only [List.length_append]; omega)
      rintro rfl
      cases hplain.isPlain
  | string hgap htext hrest ih =>
      exact ih.cons nofun (by simp only [List.length_append, List.length_cons]; omega)
  | broken hgap htext hstop hquote hrest ih =>
      exact ih.cons nofun (by simp only [List.length_append, List.length_cons]; omega)
  | whole hgap htext hrest ih =>
      exact ih.cons nofun (by simp only [List.length_append, List.length_cons]; omega)
  | @opening column gap text depth hgap hread =>
      rintro token (_ | ⟨_, ⟨⟩⟩) -
      rw [List.length_append, ← Nat.add_assoc]
      exact ⟨rfl, hread⟩
  | @line column gap text rest hgap hline hrest =>
      rcases splitLineComment_cases (column + gap.length) text with
        hwhole | ⟨before, -, body, -, -, -, -, hsplit⟩
      · rw [hwhole]
        exact OpensUpTo.cons nofun nofun rfl
      · rw [hsplit]
        exact .cons (.cons nofun nofun rfl) nofun rfl

theorem ScansLine.opensUpTo (h : ScansLine depth line row left) :
    row.OpensUpTo line.length left := by
  cases h with
  | code hrest => exact Nat.zero_add line.length ▸ hrest.opensUpTo
  | closing hdepth htext hrest =>
      exact hrest.opensUpTo.cons nofun
        (by simp only [List.length_append, List.length_cons]; omega)
  | inside => exact OpensUpTo.cons nofun nofun rfl
  | blank => nofun

-- A comment that goes on below is read from behind its mark to the end of the line.
theorem ScansLine.drop_opening (h : ScansLine depth line row left) (hline : '\n' ∉ line)
    {token : Token} (htoken : token ∈ row) (hkind : token.kind = .comment .opening) :
    line.drop token.column = '(' :: '*' :: token.text ∧
      Comment.read 1 token.text = .unclosed left := by
  obtain ⟨hfinish, hread⟩ := h.opensUpTo token htoken hkind
  refine ⟨?_, hread⟩
  -- the token ends with the line, so that all behind its column belongs to it
  obtain ⟨_, text, hstands, rfl | hsplits, -⟩ := (h.spread hline).standsOn token htoken
  · have hspan := hstands.span_eq
    have hwidth : (line.drop token.column).length ≤ token.width := by
      rw [List.length_drop, ← hfinish, Token.finish]
      omega
    rw [Token.span, List.take_of_length_le hwidth] at hspan
    rw [hspan, Token.spelling, hkind]
    exact List.append_nil _
  · obtain ⟨-, -, -, -, -, hwhole, -⟩ := hsplits
    cases hkind.symm.trans hwhole

-- A comment from above that is closed on the line ends with the piece on it.
theorem ScansLine.nested_closing {closing : Token} {after : Row}
    (h : ScansLine depth line (closing :: after) left) (hdepth : 0 < depth)
    (hkind : closing.kind = .comment .closing) : Comment.Nested depth (line.take closing.finish) := by
  cases h with
  | code => exact absurd hdepth (Nat.lt_irrefl 0)
  | @closing _ _ text rest _ _ htext hrest =>
      have htake : (text ++ '*' :: ')' :: rest).take (0 + (text.length + 2)) = text ++ ['*', ')'] := by
        rw [Nat.zero_add, List.take_length_add_append]
        rfl
      exact htake ▸ htext.nested hdepth
  | inside => cases hkind

theorem ScansLine.read_of_forall (h : ScansLine depth line row left) (hdepth : 0 < depth)
    (hnone : ∀ token ∈ row, token.kind ≠ .comment .closing) :
    Comment.read depth line = .unclosed left := by
  cases h with
  | code => exact absurd hdepth (Nat.lt_irrefl 0)
  | closing => exact absurd rfl (hnone _ (.head _))
  | inside hdepth hne hread => exact hread
  | blank => rfl

end Pieces

end Row

namespace Frame

-- The prose of the prolog comes first, and that of the epilog last.
def rank : Frame → Nat
  | prolog _ => 0
  | code _ _ => 1
  | epilog _ => 2

theorem rank_eq_one {frame : Frame} {token : Token} {kind : CommentKind} (h : token ∈ frame.row)
    (hkind : token.kind = .comment kind) : frame.rank = 1 := by
  cases frame with
  | code => rfl
  | prolog line | epilog line =>
      rw [row, Module.prose] at h
      split at h
      · cases h
      · obtain rfl := List.mem_singleton.mp h
        cases hkind

theorem arranged_row (frame : Frame) : frame.row.Arranged := by
  cases frame with
  | code depth line => exact (Row.ofLine_scans depth line).arranged
  | prolog line | epilog line =>
      rw [row, Module.prose]
      split
      · exact Row.arranged_nil
      · exact (Row.arranged_singleton (by simp [Token.ofText]) (by simp [Token.ofText])).1

theorem complete_whole {frame : Frame} (hline : '\n' ∉ frame.line) {token : Token}
    (htoken : token ∈ frame.row) (hkind : token.kind = .comment .whole) :
    Comment.Complete (token.span frame.line) := by
  have hrank := rank_eq_one htoken hkind
  cases frame with
  | prolog | epilog => cases hrank
  | code depth line =>
      have hspread := (Row.ofLine_scans depth line).spread hline
      obtain ⟨_, _, hstands, -, hcomplete⟩ := hspread.standsOn token htoken
      exact hstands.span_eq ▸ hcomplete hkind

theorem exists_linked_of_append {depth : Nat} {above rest : List Frame}
    (h : Linked depth (above ++ rest)) : ∃ depth, Linked depth rest := by
  induction above generalizing depth with
  | nil => exact ⟨depth, h⟩
  | cons frame above ih =>
      cases frame with
      | prolog | epilog => exact ih h
      | code => exact ih h.2

-- The mark opens the only comment, and what its line leaves open is open below.
theorem exists_linked_of_opening {depth : Nat} {above rest : List Frame} {top : Frame} {opening : Token}
    (h : Linked depth (above ++ top :: rest)) (hline : '\n' ∉ top.line) (hopening : opening ∈ top.row)
    (hopen : opening.kind = .comment .opening) :
    ∃ left, 0 < left ∧ Linked left rest ∧
      top.line.drop opening.column = '(' :: '*' :: opening.text ∧
      Comment.read 1 opening.text = .unclosed left := by
  have htop := rank_eq_one hopening hopen
  obtain ⟨entered, hlinked⟩ := exists_linked_of_append h
  cases top with
  | prolog | epilog => cases htop
  | code depth text =>
      obtain ⟨rfl, hlinked⟩ := hlinked
      obtain ⟨hdrop, hread⟩ := (Row.ofLine_scans depth text).drop_opening hline hopening hopen
      exact ⟨_, Comment.pos_of_read_eq_unclosed Nat.one_pos hread, hlinked, hdrop, hread⟩

-- The lines below go on inside of the comments that are open, up to the piece that closes them.
theorem nested_of_linked {depth : Nat} {middle below : List Frame} {bottom : Frame} {closing : Token}
    {after : Row} (h : Linked depth (middle ++ bottom :: below)) (hdepth : 0 < depth)
    (hmiddle : ∀ frame ∈ middle, frame.rank = 1)
    (hopen : ∀ frame ∈ middle, ∀ token ∈ frame.row, token.kind ≠ .comment .closing)
    (hrow : bottom.row = closing :: after) (hkind : closing.kind = .comment .closing) :
    Comment.Nested depth (Text.unlines (middle.map line) ++ bottom.line.take closing.finish) := by
  induction middle generalizing depth with
  | nil =>
      have hrank : bottom.rank = 1 := rank_eq_one (by rw [hrow]; exact .head _) hkind
      cases bottom with
      | prolog | epilog => cases hrank
      | code entered text =>
          obtain ⟨rfl, -⟩ := h
          have hcode : (Row.ofLine entered text).1 = closing :: after := hrow
          have hscans := Row.ofLine_scans entered text
          rw [hcode] at hscans
          exact hscans.nested_closing hdepth hkind
  | cons frame middle ih =>
      have hrank := hmiddle frame (.head _)
      cases frame with
      | prolog | epilog => cases hrank
      | code entered text =>
          obtain ⟨rfl, hlinked⟩ := h
          have hread := (Row.ofLine_scans entered text).read_of_forall hdepth (hopen _ (.head _))
          have hrest := ih hlinked (Comment.pos_of_read_eq_unclosed hdepth hread)
            (fun frame hframe => hmiddle frame (.tail _ hframe))
            (fun frame hframe => hopen frame (.tail _ hframe))
          have hnested := Comment.nested_of_read_eq_unclosed hread hrest
          simpa [Text.unlines, line] using hnested

theorem complete_of_linked {depth : Nat} {above middle below : List Frame} {top bottom : Frame}
    {opening closing : Token} {after : Row}
    (h : Linked depth (above ++ top :: (middle ++ bottom :: below)))
    (hsorted : (above ++ top :: (middle ++ bottom :: below)).Pairwise (·.rank ≤ ·.rank))
    (hline : '\n' ∉ top.line) (hopening : opening ∈ top.row)
    (hopen : opening.kind = .comment .opening) (hrow : bottom.row = closing :: after)
    (hclose : closing.kind = .comment .closing)
    (hmiddle : ∀ frame ∈ middle, ∀ token ∈ frame.row, token.kind ≠ .comment .closing) :
    Comment.Complete (Text.unlines (top.line.drop opening.column :: middle.map line) ++
      bottom.line.take closing.finish) := by
  have htop := rank_eq_one hopening hopen
  have hbottom : bottom.rank = 1 := rank_eq_one (by rw [hrow]; exact .head _) hclose
  -- the lines of code are in one piece, so that all between the two are code
  have hrank : ∀ frame ∈ middle, frame.rank = 1 := by
    intro frame hframe
    obtain ⟨-, hbelow, -⟩ := List.pairwise_append.mp hsorted
    obtain ⟨hfirst, hbelow⟩ := List.pairwise_cons.mp hbelow
    obtain ⟨-, -, hlast⟩ := List.pairwise_append.mp hbelow
    have hle := hfirst frame (by simp [hframe])
    have hge := hlast frame hframe bottom (.head _)
    omega
  obtain ⟨left, hleft, hlinked, hdrop, hread⟩ := exists_linked_of_opening h hline hopening hopen
  have hnested := nested_of_linked hlinked hleft hrank hmiddle hrow hclose
  refine ⟨_, ?_, Comment.nested_of_read_eq_unclosed hread hnested⟩
  simp [Text.unlines, hdrop]

end Frame

namespace Module

theorem rank_frames (depth : Nat) (lines : List Text) :
    ∀ frame ∈ frames depth lines, frame.rank = 1 := by
  induction lines generalizing depth with
  | nil => nofun
  | cons line rest ih =>
      rintro frame (_ | ⟨_, hframe⟩)
      · rfl
      · exact ih _ frame hframe

theorem pairwise_frames (depth : Nat) (lines : List Text) :
    (frames depth lines).Pairwise (·.rank ≤ ·.rank) := by
  induction lines generalizing depth with
  | nil => exact .nil
  | cons line rest ih =>
      refine .cons (fun frame hframe => ?_) (ih _)
      exact Nat.le_of_eq (rank_frames _ rest frame hframe).symm

theorem one_le_rank_framesFrom (nesting depth : Nat) (lines : List Text) :
    ∀ frame ∈ framesFrom nesting depth lines, 1 ≤ frame.rank := by
  induction lines generalizing nesting depth with
  | nil => nofun
  | cons line rest ih =>
      intro frame hframe
      simp only [framesFrom] at hframe
      generalize (if depth = 0 ∧ isHeader line then nesting + 1 else nesting) = entered at hframe
      rcases List.mem_cons.mp hframe with rfl | hframe
      · exact Nat.le_refl 1
      · split at hframe
        · obtain ⟨text, -, rfl⟩ := List.mem_map.mp hframe
          exact Nat.le_succ 1
        · exact ih _ _ frame hframe

theorem pairwise_framesFrom (nesting depth : Nat) (lines : List Text) :
    (framesFrom nesting depth lines).Pairwise (·.rank ≤ ·.rank) := by
  induction lines generalizing nesting depth with
  | nil => exact .nil
  | cons line rest ih =>
      have hhead := one_le_rank_framesFrom nesting depth (line :: rest)
      simp only [framesFrom] at hhead ⊢
      generalize (if depth = 0 ∧ isHeader line then nesting + 1 else nesting) = entered at hhead ⊢
      refine .cons (fun frame hframe => hhead frame (.tail _ hframe)) ?_
      split
      · exact List.pairwise_map.mpr (List.pairwise_of_forall fun _ _ => Nat.le_refl 2)
      · exact ih _ _

end Module

namespace Grid

theorem pairwise_frames (source : Text) : (frames source).Pairwise (·.rank ≤ ·.rank) := by
  rw [frames]
  split
  · refine List.pairwise_append.mpr ⟨?_, Module.pairwise_framesFrom 0 0 _, ?_⟩
    · exact List.pairwise_map.mpr (List.pairwise_of_forall fun _ _ => Nat.le_refl 0)
    · intro first hfirst frame hframe
      obtain ⟨text, -, rfl⟩ := List.mem_map.mp hfirst
      exact Nat.zero_le _
  · exact Module.pairwise_frames 0 _

-- The pieces of the comments on the rows of `lines`. An opening and the next closing belong together,
-- and what is between their marks is one comment, with the lines joined.
structure Grouped (lines : List Text) (grid : Grid) : Prop where
  length_eq : grid.length = lines.length
  arranged : ∀ row ∈ grid, row.Arranged
  accepted : ∃ isOpen, grid.checkComments 0 false = .ok isOpen
  alternates : Row.Alternates grid.flatten
  complete : ∀ (above middle below : List (Text × Row)) (top bottom : Text) (before after : Row)
    (opening closing : Token),
    lines.zip grid =
      above ++ (top, before ++ [opening]) :: (middle ++ (bottom, closing :: after) :: below) →
    opening.kind = .comment .opening → closing.kind = .comment .closing →
    (∀ entry ∈ middle, ∀ token ∈ entry.2, token.kind ≠ .comment .closing) →
    Comment.Complete (Text.unlines (top.drop opening.column :: middle.map Prod.fst) ++
      bottom.take closing.finish)
  whole : ∀ entry ∈ lines.zip grid, ∀ token ∈ entry.2, token.kind = .comment .whole →
    Comment.Complete (token.span entry.1)

theorem zip_ofSource (source : Text) :
    (Text.lines source).zip (ofSource source) =
      (frames source).map fun frame => (frame.line, frame.row) := by
  rw [ofSource_eq_frames, ← line_frames, List.zip_map']

theorem newline_not_mem_of_mem_frames {source : Text} {frame : Frame} (h : frame ∈ frames source) :
    '\n' ∉ frame.line := by
  have hline : frame.line ∈ Text.lines source := by
    rw [← line_frames]
    exact List.mem_map_of_mem h
  exact Text.newline_not_mem_of_mem_lines hline

theorem alternates_ofSource (source : Text) : Row.Alternates (ofSource source).flatten := by
  have hopen : false = true ↔ Row.LeavesOpen [] := by simp [Row.not_leavesOpen_nil]
  obtain ⟨isOpen, haccepted⟩ := exists_checkComments_ofSource source
  exact (alternates_of_checkComments hopen Row.alternates_nil haccepted).1

-- The pieces of the comments stand where they belong on their lines, they alternate, and those that
-- belong together make up one comment.
theorem grouped_ofSource (source : Text) : (ofSource source).Grouped (Text.lines source) where
  length_eq := by rw [ofSource_eq_frames, ← line_frames, List.length_map, List.length_map]
  arranged := by
    rw [ofSource_eq_frames]
    intro row hrow
    obtain ⟨frame, -, rfl⟩ := List.mem_map.mp hrow
    exact frame.arranged_row
  accepted := exists_checkComments_ofSource source
  alternates := alternates_ofSource source
  complete := by
    intro above middle below top bottom before after opening closing hsplit hopen hclose hmiddle
    rw [zip_ofSource] at hsplit
    obtain ⟨first, frames, hfirst, -, hframes⟩ := List.map_eq_append_iff.mp hsplit
    obtain ⟨upper, frames, rfl, hupper, hbelow⟩ := List.map_eq_cons_iff.mp hframes
    obtain ⟨between, frames, rfl, rfl, hend⟩ := List.map_eq_append_iff.mp hbelow
    obtain ⟨lower, last, rfl, hlower, -⟩ := List.map_eq_cons_iff.mp hend
    obtain ⟨rfl, htop⟩ := Prod.mk.inj hupper
    obtain ⟨rfl, hbottom⟩ := Prod.mk.inj hlower
    have hline := newline_not_mem_of_mem_frames (show upper ∈ Grid.frames source by simp [hfirst])
    have hlinked := linked_frames source
    have hsorted := pairwise_frames source
    rw [hfirst] at hlinked hsorted
    rw [List.map_map]
    exact Frame.complete_of_linked hlinked hsorted hline (by simp [htop]) hopen hbottom hclose
      fun frame hframe => hmiddle _ (List.mem_map_of_mem hframe)
  whole := by
    rw [zip_ofSource]
    intro entry hentry token htoken hkind
    obtain ⟨frame, hframe, rfl⟩ := List.mem_map.mp hentry
    exact frame.complete_whole (newline_not_mem_of_mem_frames hframe) htoken hkind

end Grid

end TlaGlyph
