import TlaGlyph.Proofs.Line.Deferred

namespace TlaGlyph

namespace Row

theorem Ends.endsLine {token : Token} {left : Nat} (h : Ends [token.bare] left) :
    token.endsLine = true := by
  have hbare : token.bare.endsLine = token.endsLine := rfl
  rw [← hbare]
  generalize token.bare = twin at h
  cases h with
  | opening | line => rfl

theorem isComment_of_endsLine {token : Token} (h : token.endsLine = true) :
    token.isComment = true := by
  by_contra hcode
  rw [endsLine_code (by simpa using hcode)] at h
  cases h

theorem kind_ne_whole_of_code {token : Token} (h : token.isComment = false) :
    token.kind ≠ .comment .whole := by
  intro hkind
  rw [Token.isComment, hkind] at h
  cases h

theorem kind_ne_whole_of_endsLine {token : Token} (h : token.endsLine = true) :
    token.kind ≠ .comment .whole := by
  intro hkind
  simp [Token.endsLine, Token.commentKind?, hkind, Kind.commentKind?, CommentKind.endsLine] at h

-- A token that ends its line is read for itself where nothing follows it.
theorem Ends.ofCode_emission {token : Token} {left : Nat} (h : Ends [token.bare] left)
    (column : Nat) :
    ofCode column (token.emission .toUnicode) =
      ([Token.ofText token.kind token.text column], left) := by
  rw [← Token.bare_emission, ← Token.bare_kind, ← Token.bare_text]
  generalize token.bare = twin at h
  cases h with
  | @opening text start depth hread =>
      have hemission : Token.emission .toUnicode (Token.ofText (.comment .opening) text start) =
          '(' :: '*' :: text := by
        simp [Token.emission, Token.ofText, Token.markWidth, Kind.openMark, Kind.closeMark,
          CommentKind.emission, CommentKind.openMark, CommentKind.closeMark]
      rw [hemission, ofCode_opening column hread]
      rfl
  | @line text start hline hwhole =>
      have hemission : Token.emission .toUnicode (Token.ofText (.comment .line) text start) =
          '\\' :: '*' :: text := by
        simp [Token.emission, Token.ofText, CommentKind.emission, CommentKind.openMark,
          CommentKind.closeMark]
      rw [hemission, ofCode_line column hline, splitLineComment_whole hwhole column]
      rfl

-- The two ways in which a row ends. Where a line comment is split the last token does not end the line.
inductive Ended (code : Token) (rest : Row) : Nat → Prop
  | single {left : Nat} (hstable : ∀ token ∈ code :: rest.body, token.Stable)
      (hends : Ends (bare rest.ending.toList) left) : Ended code rest left
  | split {stable : Row} {line block : Token} (hrow : code :: rest = stable ++ [line, block])
      (hnone : rest.ending = none) (hstable : ∀ token ∈ stable, token.Stable)
      (hends : Ends [line.bare, block.bare] 0) : Ended code rest 0

theorem ended_of_ends {code : Token} {rest stable back : Row} {left : Nat}
    (hcode : code.isComment = false) (hrow : bare (code :: rest) = stable ++ back)
    (hstable : ∀ token ∈ stable, token.Stable) (hends : Ends back left) : Ended code rest left := by
  obtain ⟨first, last, hsplit, rfl, hlast⟩ := List.map_eq_append_iff.mp hrow
  have hfirst : ∀ token ∈ first, token.Stable := fun token htoken =>
    (hstable token.bare (List.mem_map_of_mem htoken)).of_bare
  -- a last token that ends its line
  have hsingle {token : Token} (htoken : last = [token]) (hends : Ends [token.bare] left) :
      Ended code rest left := by
    have hendsLine := hends.endsLine
    cases first with
    | nil =>
        rw [htoken] at hsplit
        obtain ⟨rfl, -⟩ := List.cons.inj hsplit
        rw [isComment_of_endsLine hendsLine] at hcode
        cases hcode
    | cons head first =>
        rw [htoken, List.cons_append] at hsplit
        obtain ⟨rfl, rfl⟩ := List.cons.inj hsplit
        have hbody : body (first ++ [token]) = first := by simp [body, hendsLine]
        have hending : ending (first ++ [token]) = some token := by
          simp [ending, Option.filter, hendsLine]
        refine .single ?_ ?_
        · rwa [hbody]
        · rwa [hending]
  cases hends with
  | nil =>
      obtain rfl := List.map_eq_nil_iff.mp hlast
      rw [List.append_nil] at hsplit
      subst hsplit
      have hending : rest.ending = none :=
        ending_eq_none fun token htoken => (hfirst token (List.mem_cons_of_mem _ htoken)).endsLine
      refine .single ?_ ?_
      · rwa [body_eq_self hending]
      · rw [hending]
        exact .nil
  | opening hread =>
      obtain ⟨token, hone, htoken⟩ := List.map_eq_singleton_iff.mp hlast
      exact hsingle hone (htoken ▸ .opening hread)
  | line hline hwhole =>
      obtain ⟨token, hone, htoken⟩ := List.map_eq_singleton_iff.mp hlast
      exact hsingle hone (htoken ▸ .line hline hwhole)
  | @split text before after column block hline hsplitAt hkind htext =>
      obtain ⟨line, tail, rfl, hfront, htail⟩ := List.map_eq_cons_iff.mp hlast
      obtain ⟨twin, rfl, htwin⟩ := List.map_eq_singleton_iff.mp htail
      have hwhole : twin.kind = .comment .whole := (congrArg Token.kind htwin).trans hkind
      have hends : twin.endsLine = false := by
        simp [Token.endsLine, Token.commentKind?, hwhole, Kind.commentKind?, CommentKind.endsLine]
      refine .split hsplit ?_ hfirst ?_
      · rw [← ending_cons fun _ => endsLine_code hcode, hsplit,
          ending_append (List.cons_ne_nil line [twin])]
        simp [ending, Option.filter, hends]
      · rw [hfront, htwin]
        exact .split hline hsplitAt hkind htext

-- The row that is found behind a token that ends at `stop`. Its comments all follow that token, and the
-- whole ones are those of the row and the ones that gave way.
structure Rereads (stop : Nat) (rest comments : Row) (left : Nat) (found : Row × Nat) : Prop where
  depth : found.2 = left
  behind : ∀ token ∈ found.1.comments, stop ≤ token.column
  whole : (∀ token ∈ rest.dropLast, token.kind ≠ .comment .line) →
    wholeTexts found.1 = wholeTexts rest ++ comments.map Token.text

end Row

namespace Laid

open Row (Rereads wholeTexts)

variable {start column left : Nat} {code : Token} {rest comments : Row} {text : Text}

-- Where the first token stands.
theorem bounds_head (h : Laid .toUnicode start (code :: rest) text)
    (hcolumn : code.outputColumn = some column) :
    start ≤ column ∧ column + (code.emission .toUnicode).length ≤ start + text.length := by
  obtain ⟨other, hother, hle, hend⟩ := h.exists_of_mem List.mem_cons_self
  obtain rfl : other = column := by simpa [hcolumn] using hother.symm
  exact ⟨hle, hend⟩

-- The comments of the row all stand behind its first token.
theorem le_of_mem_comments (h : Laid .toUnicode start (code :: rest) text)
    (hcolumn : code.outputColumn = some column) (hcode : code.isComment = false) {token : Token}
    (htoken : token ∈ Row.comments ((code :: rest).map Token.landed)) :
    column + (code.emission .toUnicode).length ≤ token.column := by
  have hlanded : code.landed.isComment = false := hcode
  rw [List.map_cons, Row.comments_cons_of_code hlanded] at htoken
  obtain ⟨origin, horigin, rfl⟩ := List.mem_map.mp (List.mem_filter.mp htoken).1
  cases h with
  | @cons _ count _ _ _ houtput hrest =>
      obtain rfl : start + count = column := by simpa [houtput] using hcolumn
      obtain ⟨other, hother, hle, -⟩ := hrest.exists_of_mem horigin
      rw [Token.landed, hother]
      exact hle

theorem closes_deferred (hinside : ∀ comment ∈ comments, Comment.Inside 1 comment.text) :
    Comment.Closes (comments.flatMap (Text.deferred ·.text)) := by
  induction comments with
  | nil => exact Comment.closes_nil
  | cons comment comments ih =>
      have hrest := ih fun other hother => hinside other (List.mem_cons_of_mem _ hother)
      have hwhole := Comment.closes_whole (hinside comment List.mem_cons_self) hrest
      have hcloses := Comment.closes_spaces 1 hwhole
      rw [List.flatMap_cons]
      simpa [Text.deferred, Text.spaces] using hcloses

theorem exists_of_split {width : Nat} {line block : Token} {last : Text}
    (h : Laid .toUnicode width [line, block] last) (hends : Row.Ends [line.bare, block.bare] 0) :
    ∃ first second text before after, Text.splitAt? ['(', '*'] text = some (before, after) ∧
      last = Text.spaces first ++
        '\\' :: '*' :: (before ++ (Text.spaces second ++ ['(', '*', '*', ')'])) := by
  have hline := line.bare_emission .toUnicode
  have hblock := block.bare_emission .toUnicode
  generalize line.bare = front, block.bare = back at hends hline hblock
  cases hends with
  | @split text before after _ _ hnewline hsplit hkind htext =>
      have hfront : line.emission .toUnicode = '\\' :: '*' :: before := by
        rw [← hline]
        simp [Token.emission, Token.ofText, CommentKind.emission, CommentKind.openMark,
          CommentKind.closeMark]
      have hback : block.emission .toUnicode = ['(', '*', '*', ')'] := by
        rw [← hblock]
        simp [Token.emission, hkind, htext, CommentKind.emission, CommentKind.openMark,
          CommentKind.closeMark]
      cases h with
      | @cons _ first _ _ _ _ hrest =>
      cases hrest with
      | @cons _ second _ _ _ _ hrest =>
      cases hrest
      exact ⟨first, second, text, before, after, hsplit, by simp [hfront, hback]⟩

-- A split line comment opens nothing: the block comment that it ends with has lost its text, and in
-- front of that one there is no mark.
theorem closes_split {width : Nat} {line block : Token} {last : Text}
    (h : Laid .toUnicode width [line, block] last) (hends : Row.Ends [line.bare, block.bare] 0)
    (hinside : ∀ comment ∈ comments, Comment.Inside 1 comment.text) :
    Comment.Closes (last ++ comments.flatMap (Text.deferred ·.text)) := by
  obtain ⟨first, second, text, before, after, hsplit, rfl⟩ := h.exists_of_split hends
  have hnil : Comment.Inside 1 [] := fun rest => rfl
  have hother := Comment.closes_spaces second (Comment.closes_whole hnil (closes_deferred hinside))
  have hhead : (Text.spaces second ++ '(' :: '*' :: ([] ++ '*' :: ')' ::
      comments.flatMap (Text.deferred ·.text))).head? ≠ some '*' := by
    cases second <;> simp [Text.spaces, List.replicate_succ]
  have hbefore := Comment.closes_of_splitAt? hsplit hhead hother
  have hmark := Comment.closes_cons (c := '*') (.inl (by decide)) hbefore
  simpa using Comment.closes_spaces first (Comment.closes_cons (c := '\\') (.inl (by decide)) hmark)

section Rereads

variable (hcolumn : code.outputColumn = some column) (hcode : code.isComment = false)
  (hclear : (code :: rest).IsChain fun previous next => ¬ previous.Glues next)
  (hinside : ∀ comment ∈ comments, Comment.Inside 1 comment.text)
include hcolumn hcode hclear hinside

-- The last token of the row follows the deferred comments.
theorem rereads_single (h : Laid .toUnicode start (code :: rest.body) text)
    (hstable : ∀ token ∈ code :: rest.body, token.Stable)
    (hends : Row.Ends (Row.bare rest.ending.toList) left) :
    Rereads (column + (code.emission .toUnicode).length) rest comments left
      (Row.ofCode start (text ++ comments.flatMap (Text.deferred ·.text) ++
        rest.ending.elim [] (' ' :: Token.emission .toUnicode ·))) := by
  have hrow : code :: rest = code :: rest.body ++ rest.ending.toList := by
    rw [List.cons_append, Row.body_append_ending]
  rw [hrow] at hclear
  obtain ⟨later, zone, hpassed⟩ :=
    h.exists_passed_deferred hstable (List.isChain_append.mp hclear).1 hinside
  have hlaid := h.append (Row.laid_deferredAt _ comments)
  have hcodeWhole : code.kind ≠ .comment .whole := Row.kind_ne_whole_of_code hcode
  -- what is found in front of the last token
  have hbehind (token : Token) := @le_of_mem_comments _ _ _ _ _ hlaid hcolumn hcode token
  have hwhole : wholeTexts (Row.comments ((code :: rest.body ++
      Row.deferredAt (start + text.length) comments).map Token.landed)) =
        wholeTexts rest.body ++ comments.map Token.text := by
    rw [Row.wholeTexts_comments, Row.wholeTexts_landed, Row.wholeTexts_append,
      Row.wholeTexts_deferredAt, Row.wholeTexts_cons_of_ne hcodeWhole]
  have hrest : wholeTexts rest = wholeTexts rest.body ++ wholeTexts rest.ending.toList := by
    rw [← Row.wholeTexts_append, Row.body_append_ending]
  cases hending : rest.ending with
  | none =>
      rw [hending] at hends hrest
      obtain ⟨hfound, hdepth⟩ := hpassed.ofCode_end
      obtain rfl : left = 0 := by cases hends; rfl
      rw [Option.elim_none, List.append_nil]
      refine ⟨hdepth, ?_, fun _ => ?_⟩
      · rwa [hfound]
      · rw [← Row.wholeTexts_comments, hfound, hwhole, hrest]
        simp [wholeTexts]
  | some token =>
      rw [hending] at hends hrest
      have hread := hends.ofCode_emission
        (start + (text ++ comments.flatMap (Text.deferred ·.text)).length + 1)
      obtain ⟨hfound, hdepth⟩ := hpassed.ofCode_behind (token.emission .toUnicode)
      rw [hread] at hfound hdepth
      have hother := Row.kind_ne_whole_of_endsLine (Row.Ends.endsLine hends)
      rw [Option.elim_some]
      refine ⟨hdepth, ?_, fun _ => ?_⟩
      · rw [hfound]
        intro other hmem
        rcases List.mem_append.mp hmem with hmem | hmem
        · exact hbehind other hmem
        · obtain rfl := List.mem_singleton.mp (List.mem_filter.mp hmem).1
          have := (hlaid.bounds_head hcolumn).2
          simp only [Token.ofText]
          omega
      · rw [← Row.wholeTexts_comments, hfound, Row.wholeTexts_append, hwhole, Row.wholeTexts_comments,
          hrest]
        simp [wholeTexts, Token.ofText, hother]

-- A split line comment takes the deferred comments into it.
theorem rereads_split {stable : Row} {line block : Token}
    (h : Laid .toUnicode start (code :: rest) text) (hrow : code :: rest = stable ++ [line, block])
    (hstable : ∀ token ∈ stable, token.Stable) (hends : Row.Ends [line.bare, block.bare] 0) :
    Rereads (column + (code.emission .toUnicode).length) rest comments 0
      (Row.ofCode start (text ++ comments.flatMap (Text.deferred ·.text))) := by
  have hline : line.kind = .comment .line := by
    rw [← Token.bare_kind]
    generalize line.bare = front at hends
    cases hends
    rfl
  cases stable with
  | nil =>
      obtain ⟨rfl, -⟩ := List.cons.inj hrow
      rw [Token.isComment, hline] at hcode
      cases hcode
  | cons head stable =>
      obtain ⟨rfl, hrest⟩ := List.cons.inj hrow
      rw [hrow] at h hclear
      obtain ⟨first, last, rfl, hfirst, hlaid⟩ := h.exists_append
      obtain ⟨later, zone, hpassed⟩ :=
        hfirst.exists_passed_self hstable (List.isChain_append.mp hclear).1
      have hcloses := hlaid.closes_split hends hinside
      have hhead : (last ++ comments.flatMap (Text.deferred ·.text)).head? ≠ some '*' := by
        obtain ⟨spaces, -, -, before, -, -, rfl⟩ := hlaid.exists_of_split hends
        cases spaces <;> simp [Text.spaces, List.replicate_succ]
      obtain ⟨count, -, hfound, hdepth⟩ :=
        Row.exists_comments_ofCode hpassed.unmarked hhead later
      obtain ⟨hreads, hleft⟩ := hpassed.reads (last ++ comments.flatMap (Text.deferred ·.text))
      rw [hfound] at hreads
      rw [hdepth] at hleft
      have hscan := Row.ofCode_scans (later + zone.length + count)
        ((last ++ comments.flatMap (Text.deferred ·.text)).drop count)
      rw [List.append_assoc]
      refine ⟨?_, ?_, fun hnone => ?_⟩
      · rw [hleft]
        exact hscan.depth_eq_zero (hcloses.suffix (List.drop_suffix _ _))
      · rw [hreads]
        intro token htoken
        rcases List.mem_append.mp htoken with htoken | htoken
        · exact hfirst.le_of_mem_comments hcolumn hcode htoken
        · have hle := (hscan.measured (Nat.le_refl _)).le_of_mem (List.mem_filter.mp htoken).1
          have hend := (hfirst.bounds_head hcolumn).2
          have hlength := hpassed.length
          omega
      · refine absurd hline (hnone line ?_)
        rw [hrest, List.append_eq, List.dropLast_append_of_ne_nil (List.cons_ne_nil _ _)]
        simp

-- What is read from the place of the token on that the comments gave way to.
theorem rereads (h : Laid .toUnicode start (code :: rest.body) text)
    (hended : Row.Ended code rest left) :
    Rereads (column + (code.emission .toUnicode).length) rest comments left
      (Row.ofCode start (text ++ comments.flatMap (Text.deferred ·.text) ++
        rest.ending.elim [] (' ' :: Token.emission .toUnicode ·))) := by
  cases hended with
  | single hstable hends => exact rereads_single hcolumn hcode hclear hinside h hstable hends
  | split hrow hnone hstable hends =>
      rw [Row.body_eq_self hnone] at h
      rw [hnone, Option.elim_none, List.append_nil]
      exact rereads_split hcolumn hcode hclear hinside h hrow hstable hends

end Rereads

end Laid

end TlaGlyph
