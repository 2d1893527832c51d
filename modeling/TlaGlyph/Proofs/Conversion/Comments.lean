import TlaGlyph.Proofs.Conversion.Run
import TlaGlyph.Proofs.Line.Broken
import TlaGlyph.Proofs.Line.Sound

namespace TlaGlyph

namespace Row

-- The comments in front of `code` gave way, and it was written at `column`.
structure Realigned (written comments : Row) (code : Token) (rest : Row) (column : Nat) : Prop where
  eq_append : written = comments ++ code :: rest
  ne_nil : comments ≠ []
  unwritten : ∀ comment ∈ comments, comment.isComment = true ∧ comment.outputColumn = none
  isCode : code.isComment = false
  written : code.outputColumn = some column

-- The same is commented out on the line `out` as on the line `text` that it comes from, both read from
-- inside `depth` comments: as many comments are open behind it, `code` is outside of all its comments,
-- and its whole comments are those of the row and the ones that gave way. These are lost in a line
-- comment if the row splits one.
structure KeepsComments (depth : Nat) (text out : Text) (comments : Row) (code : Token) (rest : Row)
    (column : Nat) : Prop where
  left : (ofLine depth out).2 = (ofLine depth text).2
  outside : ∀ comment ∈ (ofLine depth out).1.comments, comment.finish ≤ column ∨
    column + (code.emission .toUnicode).length ≤ comment.column
  whole : (∀ token ∈ rest.dropLast, token.kind ≠ .comment .line) →
    wholeTexts (ofLine depth out).1 = wholeTexts rest ++ comments.map Token.text

variable {above : Grid} {direction : Direction} {row written comments rest : Row} {code : Token}
  {column : Nat} {line : Text}

-- What stands on a line that was realigned.
theorem Converted.exists_laid (h : Converted above direction row written line)
    (hrealigned : Realigned written comments code rest column) :
    ∃ text, Laid .toUnicode comments.front.length (code :: rest.body) text ∧
      line = comments.front ++ text ++ comments.flatMap (Text.deferred ·.text) ++
        rest.ending.elim [] (' ' :: Token.emission .toUnicode ·) := by
  obtain ⟨rfl, hne, hcomments, hcode, hcolumn⟩ := hrealigned
  generalize hwritten : comments ++ code :: rest = written at h
  cases h with
  | inPlace hsame hplaced =>
      obtain ⟨comment, hcomment⟩ := List.exists_mem_of_ne_nil comments hne
      obtain ⟨other, hother, -⟩ := hplaced.laid.exists_of_mem
        (hwritten ▸ List.mem_append_left _ hcomment)
      rw [(hcomments comment hcomment).2] at hother
      cases hother
  | @realigned leading yielded behind tail first goal hidden text hleading hyielded hhidden hcrowded
      hfront hallows hsame hending hplaced =>
      have hall : ∀ comment ∈ leading.map Token.unwritten, comment.isComment = true := by
        intro comment hcomment
        obtain ⟨origin, horigin, rfl⟩ := List.mem_map.mp hcomment
        exact hleading origin horigin
      have hfirst : (first.writtenAt goal).isComment = false := hcrowded.code
      have htake := congrArg (List.takeWhile Token.isComment) hwritten
      rw [takeWhile_isComment (fun comment hcomment => (hcomments comment hcomment).1) hcode,
        takeWhile_isComment hall hfirst] at htake
      subst htake
      obtain ⟨rfl, rfl⟩ := List.cons.inj (List.append_cancel_left hwritten)
      have hsame : front (leading.map Token.unwritten) = front leading := by
        cases leading <;> rfl
      have hdeferred : (leading.map Token.unwritten).flatMap (Text.deferred ·.text) =
          leading.flatMap (Text.deferred ·.text) := by
        rw [List.flatMap_map]
        rfl
      rw [hsame, hdeferred]
      refine ⟨_, (placed_realigned hcrowded.goal hcrowded.code hfront hallows hplaced).laid, ?_⟩
      rw [hending]
      simp

-- The mark at the beginning closes one comment, and the text behind it is read as code.
theorem ofLine_one (rest : Text) :
    ofLine 1 ('*' :: ')' :: rest) =
      (Token.ofText (.comment .closing) [] 0 :: (ofCode 2 rest).1, (ofCode 2 rest).2) := by
  have hread : Comment.read 1 ('*' :: ')' :: rest) = .closed [] rest := rfl
  rw [ofLine, if_neg Nat.one_ne_zero]
  simp only [hread]
  rfl

-- The line of a realigned row that begins inside of one comment at most.
theorem ofLine_front {depth : Nat} (hdepth : depth ≤ 1)
    (hfront : comments.front = if depth = 0 then [] else ['*', ')']) (more : Text) :
    ∃ closing : Row, (∀ token ∈ closing, token.kind = .comment .closing ∧
        token.finish = comments.front.length) ∧
      ofLine depth (comments.front ++ more) =
        (closing ++ (ofCode comments.front.length more).1, (ofCode comments.front.length more).2) := by
  rw [hfront]
  obtain rfl | rfl : depth = 0 ∨ depth = 1 := by omega
  · exact ⟨[], nofun, rfl⟩
  · refine ⟨[Token.ofText (.comment .closing) [] 0], fun token htoken => ?_, ofLine_one more⟩
    obtain rfl := List.mem_singleton.mp htoken
    exact ⟨rfl, rfl⟩

theorem wholeTexts_closing {closing : Row} (h : ∀ token ∈ closing, token.kind = .comment .closing)
    (row : Row) : wholeTexts (closing ++ row) = wholeTexts row := by
  induction closing with
  | nil => rfl
  | cons token closing ih =>
      have hkind : token.kind ≠ .comment .whole := by
        rw [h token List.mem_cons_self]
        exact nofun
      rw [List.cons_append, wholeTexts_cons_of_ne hkind,
        ih fun other hother => h other (List.mem_cons_of_mem _ hother)]

theorem Rereads.keepsComments {depth left : Nat} {text more : Text} (hdepth : depth ≤ 1)
    (hfront : comments.front = if depth = 0 then [] else ['*', ')'])
    (hcolumn : comments.front.length ≤ column) (hleft : (ofLine depth text).2 = left)
    (h : Rereads (column + (code.emission .toUnicode).length) rest comments left
      (ofCode comments.front.length more)) :
    KeepsComments depth text (comments.front ++ more) comments code rest column := by
  obtain ⟨closing, hclosing, hline⟩ := ofLine_front hdepth hfront more
  refine ⟨?_, ?_, fun hsplit => ?_⟩
  · rw [hline, hleft]
    exact h.depth
  · rw [hline, comments_append]
    intro comment hcomment
    rcases List.mem_append.mp hcomment with hcomment | hcomment
    · refine .inl ?_
      rw [(hclosing comment (List.mem_filter.mp hcomment).1).2]
      exact hcolumn
    · exact .inr (h.behind comment hcomment)
  · rw [hline, wholeTexts_closing fun token htoken => (hclosing token htoken).1]
    exact h.whole hsplit

-- Where several comments are open, what follows one mark is still inside of one.
theorem not_keepsComments {depth count : Nat} {text more : Text} (hdepth : 2 ≤ depth)
    (hmore : more ≠ []) :
    ¬ KeepsComments depth text ('*' :: ')' :: (Text.spaces count ++ more)) comments code rest
      (2 + count) := by
  have hcovers (token : Token) (hmem : token ∈ (ofLine depth
      ('*' :: ')' :: (Text.spaces count ++ more))).1) (hcomment : token.isComment = true)
      (hzero : token.column = 0) (hfinish : 2 + count < token.finish) :
      ¬ KeepsComments depth text ('*' :: ')' :: (Text.spaces count ++ more)) comments code rest
        (2 + count) := by
    intro h
    rcases h.outside token (List.mem_filter.mpr ⟨hmem, hcomment⟩) with hle | hle <;> omega
  have hmark : Comment.read depth ('*' :: ')' :: (Text.spaces count ++ more)) =
      (Comment.read (depth - 1) (Text.spaces count ++ more)).prepend ['*', ')'] := by
    rw [Comment.read, if_neg (by omega)]
  cases hread : Comment.read (depth - 1) (Text.spaces count ++ more) with
  | closed body after =>
      have hlength := Comment.le_length_of_read hread
      rw [hread] at hmark
      refine hcovers (Token.ofText (.comment .closing) ('*' :: ')' :: body) 0) ?_ rfl rfl ?_
      · rw [ofLine, if_neg (by omega)]
        simp only [hmark, Comment.Extent.prepend]
        exact List.mem_cons_self
      · change 2 + count < 0 + (('*' :: ')' :: body).length + 2)
        simp only [List.length_cons]
        omega
  | unclosed left =>
      rw [hread] at hmark
      refine hcovers (Token.ofText (.comment .inside) ('*' :: ')' :: (Text.spaces count ++ more)) 0)
        ?_ rfl rfl ?_
      · rw [ofLine, if_neg (by omega)]
        simp only [hmark, Comment.Extent.prepend]
        exact List.mem_singleton_self _
      · have hpos := List.length_pos_iff.mpr hmore
        change 2 + count < 0 + (('*' :: ')' :: (Text.spaces count ++ more)).length + 0)
        simp only [List.length_cons, List.length_append, Text.length_spaces]
        omega

theorem KeepsComments.depth_le_one {depth : Nat} {text more last : Text} {others : Row}
    (h : KeepsComments depth text
      (comments.front ++ (more ++ comments.flatMap (Text.deferred ·.text) ++ last)) comments code rest
      column)
    (hne : comments ≠ []) (hfront : comments.front = if depth = 0 then [] else ['*', ')'])
    (hlaid : Laid .toUnicode comments.front.length (code :: others) more)
    (hcolumn : code.outputColumn = some column) : depth ≤ 1 := by
  by_contra hlt
  rw [if_neg (by omega)] at hfront
  have hdeferred : comments.flatMap (Text.deferred ·.text) ≠ [] := by
    obtain ⟨comment, others, rfl⟩ := List.exists_cons_of_ne_nil hne
    simp [Text.deferred]
  cases hlaid with
  | @cons _ count _ _ tail houtput htail =>
      obtain rfl : comments.front.length + count = column := by simpa [hcolumn] using houtput.symm
      rw [hfront] at h
      simp only [List.append_assoc, List.cons_append, List.nil_append] at h
      exact not_keepsComments (by omega) (by simp [hdeferred]) h

-- A string that breaks off takes the comments that are deferred behind it.
theorem not_keepsComments_of_breaksOff {depth : Nat} {text more : Text} (hdepth : depth ≤ 1)
    (hfront : comments.front = if depth = 0 then [] else ['*', ')'])
    (hlaid : Laid .toUnicode comments.front.length (code :: rest) more)
    (hcode : code.isComment = false) (hbroken : BreaksOff (code :: rest))
    (hclear : (code :: rest).IsChain fun previous next => ¬ previous.Glues next) (hne : comments ≠ [])
    (hinside : ∀ comment ∈ comments, Comment.Inside 1 comment.text) :
    ¬ KeepsComments depth text
      (comments.front ++ (more ++ comments.flatMap (Text.deferred ·.text))) comments code rest column := by
  intro hkeeps
  obtain ⟨closing, hclosing, hline⟩ := ofLine_front hdepth hfront
    (more ++ comments.flatMap (Text.deferred ·.text))
  have hwhole := hkeeps.whole fun token htoken hkind => by
    have hrest := (List.dropLast_sublist rest).subset htoken
    have hends := hbroken.endsLine token (List.mem_cons_of_mem _ hrest)
    simp [Token.endsLine, Token.commentKind?, hkind, Kind.commentKind?, CommentKind.endsLine] at hends
  have hother : code.kind ≠ .comment .whole := kind_ne_whole_of_code hcode
  rw [hline, wholeTexts_closing fun token htoken => (hclosing token htoken).1,
    ← wholeTexts_cons_of_ne hother rest] at hwhole
  exact hlaid.wholeTexts_ne hbroken hclear hne hinside hwhole

-- A row that was realigned keeps its comments if and only if its line begins inside of one comment at
-- most and no string breaks off on it.
theorem Converted.keeps_iff {depth : Nat} {text out : Text}
    (h : Converted above .toUnicode row written out) (hsource : row.bare = (ofLine depth text).1)
    (hline : '\n' ∉ text) (hrealigned : Realigned written comments code rest column)
    (hclear : (code :: rest).IsChain fun previous next => ¬ previous.Glues next) :
    KeepsComments depth text out comments code rest column ↔
      depth ≤ 1 ∧ ∀ token ∈ code :: rest, token.isBrokenString = false := by
  have hbare := bare_of_unwritten h.unwritten_eq
  obtain ⟨more, hlaid, rfl⟩ := h.exists_laid hrealigned
  obtain ⟨rfl, hne, hcomments, hcode, hcolumn⟩ := hrealigned
  have hscan := ofLine_scans depth text
  rw [← hsource, ← hbare, bare, List.map_append, List.map_cons] at hscan
  have hall : ∀ comment ∈ comments.map Token.bare, comment.isComment = true := by
    intro comment hcomment
    obtain ⟨origin, horigin, rfl⟩ := List.mem_map.mp hcomment
    exact (hcomments origin horigin).1
  obtain ⟨hleading, start, behind, hsuffix, hcodeScan⟩ := hscan.leading hall hcode
  have hfront : comments.front = if depth = 0 then [] else ['*', ')'] := by
    rw [← hleading.front_eq]
    cases comments <;> rfl
  have hinside (hdepth : depth ≤ 1) : ∀ comment ∈ comments, Comment.Inside 1 comment.text :=
    fun comment hcomment => hleading.inside hdepth comment.bare (List.mem_map_of_mem hcomment)
  rw [List.append_assoc, List.append_assoc, ← List.append_assoc more]
  constructor
  · intro hkeeps
    have hdepth := hkeeps.depth_le_one hne hfront hlaid hcolumn
    refine ⟨hdepth, fun token htoken => Bool.eq_false_iff.mpr fun hbroken => ?_⟩
    have hbroken : BreaksOff (code :: rest) := .of_bare
      (hcodeScan.breaksOff (fun hmem => hline (hsuffix.subset hmem)) (List.mem_map_of_mem htoken) hbroken)
    have hending : rest.ending = none :=
      ending_eq_none fun other hother => hbroken.endsLine other (List.mem_cons_of_mem _ hother)
    rw [hending, Option.elim_none, List.append_nil] at hkeeps
    rw [body_eq_self hending] at hlaid
    exact not_keepsComments_of_breaksOff hdepth hfront hlaid hcode hbroken hclear hne (hinside hdepth)
      hkeeps
  · rintro ⟨hdepth, hquote⟩
    have hbroken : ∀ token ∈ code.bare :: bare rest, token.isBrokenString = false := by
      intro token htoken
      obtain ⟨origin, horigin, rfl⟩ := List.mem_map.mp
        (show token ∈ (code :: rest).map Token.bare from htoken)
      exact hquote origin horigin
    obtain ⟨stable, back, hrow, hstable, hends⟩ := hcodeScan.exists_ends hbroken
    have hended := ended_of_ends hcode hrow hstable hends
    exact (Laid.rereads hcolumn hcode hclear (hinside hdepth) hlaid hended).keepsComments hdepth hfront
      (hlaid.bounds_head hcolumn).1 rfl

end Row

namespace Text

variable {source : Text} {lines : List Text} {line column : Nat} {row comments rest : Row}
  {code : Token} {out : Text}

-- The lines of a module that are no code have one token, so that none of them was realigned.
theorem exists_code_of_realigned {frame : Frame} (hbare : row.bare = frame.row)
    (h : row.Realigned comments code rest column) : ∃ depth text, frame = .code depth text := by
  have hlength := congrArg List.length hbare
  obtain ⟨comment, others, rfl⟩ := List.exists_cons_of_ne_nil h.ne_nil
  rw [h.eq_append, Row.bare, List.length_map, List.length_append, List.length_cons,
    List.length_cons] at hlength
  cases frame with
  | prolog line | epilog line =>
      simp only [Frame.row, Module.prose] at hlength
      split at hlength
      · cases hlength
      · rw [List.length_singleton] at hlength
        omega
  | code depth text => exact ⟨depth, text, rfl⟩

-- Where comments gave way on a line, the same is commented out as before if and only if the line begins
-- inside of one comment at most and no string breaks off on it. Tokens that have run into each other
-- and make a mark together are left out here: their gap was lost.
theorem keepsComments_iff (h : convertLines .toUnicode source = .ok lines)
    (hrow : (written .toUnicode source)[line]? = some row) (hout : lines[line]? = some out)
    (hrealigned : row.Realigned comments code rest column)
    (hclear : (code :: rest).IsChain fun previous next => ¬ previous.Glues next) :
    ∃ depth text, (Grid.frames source)[line]? = some (.code depth text) ∧
      (Row.KeepsComments depth text out comments code rest column ↔
        depth ≤ 1 ∧ ∀ token ∈ code :: rest, token.isBrokenString = false) := by
  have hruns := runs_of_convertLines h
  have hlt : line < (Grid.parse source).length := by
    rw [← hruns.length_after]
    exact (List.getElem?_eq_some_iff.mp hrow).1
  have hsource := List.getElem?_eq_getElem hlt
  have hconverted := hruns.converted hsource hrow hout
  have hbare := congrArg (·[line]?) (Grid.bare_parse source)
  simp only [List.getElem?_map, hsource, Option.map_some] at hbare
  obtain ⟨frame, hframe, hsame⟩ := Option.map_eq_some_iff.mp hbare.symm
  obtain ⟨depth, text, rfl⟩ := exists_code_of_realigned
    ((Row.bare_of_unwritten hconverted.unwritten_eq).trans hsame.symm) hrealigned
  have htext : text ∈ Text.lines source := by
    rw [← Grid.line_frames]
    exact List.mem_map_of_mem (List.mem_of_getElem? hframe)
  exact ⟨depth, text, hframe, hconverted.keeps_iff hsame.symm
    (newline_not_mem_of_mem_lines htext) hrealigned hclear⟩

-- The tokens on the last line run into each other, and its comment is lost in another one.
example : convertLines .toUnicode "\\A \\A \\A x \\A y\n(*c c*)  y  ( * z".toList =
    .ok ["∀ ∀ ∀ x ∀ y".toList, "      y  (* z (*c c*)".toList] := by
  decide +kernel

-- Two comments are open in front of the line, and its mark closes one.
theorem not_forall_keepsComments :
    ¬ ∀ (source : Text) (lines : List Text) (line depth column : Nat) (row comments rest : Row)
      (code : Token) (text out : Text),
      convertLines .toUnicode source = .ok lines →
      (Grid.frames source)[line]? = some (.code depth text) →
      (written .toUnicode source)[line]? = some row → lines[line]? = some out →
      row.Realigned comments code rest column →
      Row.KeepsComments depth text out comments code rest column := by
  intro h
  have hlines : convertLines .toUnicode "\\A \\A \\A x (* a (* b\nc*)d *)  y".toList =
      .ok ["∀ ∀ ∀ x (* a (* b".toList, "*)    y (*c*)d *)".toList] := by decide +kernel
  have hframe : (Grid.frames "\\A \\A \\A x (* a (* b\nc*)d *)  y".toList)[1]? =
      some (.code 2 "c*)d *)  y".toList) := by decide +kernel
  have hrow : (written .toUnicode "\\A \\A \\A x (* a (* b\nc*)d *)  y".toList)[1]? = some [
      ⟨.comment .closing, "c*)d ".toList, 0, 7, none, none⟩,
      ⟨.ident, "y".toList, 9, 1, some 6, some ⟨0, 3⟩⟩] := by decide +kernel
  have hkeeps := h _ _ 1 2 6 _ [_] [] _ _ _ hlines hframe hrow rfl
    ⟨rfl, List.cons_ne_nil _ _, by decide, rfl, rfl⟩
  exact absurd hkeeps.outside (by decide +kernel)

theorem keepsComments_iff_of_whole :
    convertLines .toUnicode "\\A \\A \\A x\n(* c *)  y".toList =
        .ok ["∀ ∀ ∀ x".toList, "      y (* c *)".toList] ∧
      ∃ row comment code, (written .toUnicode "\\A \\A \\A x\n(* c *)  y".toList)[1]? = some row ∧
        row.Realigned [comment] code [] 6 ∧
        ([code].IsChain fun previous next => ¬ previous.Glues next) ∧
        ∃ depth text, (Grid.frames "\\A \\A \\A x\n(* c *)  y".toList)[1]? =
            some (.code depth text) ∧
          (Row.KeepsComments depth text "      y (* c *)".toList [comment] code [] 6 ↔
            depth ≤ 1 ∧ ∀ token ∈ [code], token.isBrokenString = false) := by
  have hlines : convertLines .toUnicode "\\A \\A \\A x\n(* c *)  y".toList =
      .ok ["∀ ∀ ∀ x".toList, "      y (* c *)".toList] := by decide +kernel
  have hrow : (written .toUnicode "\\A \\A \\A x\n(* c *)  y".toList)[1]? = some [
      ⟨.comment .whole, " c ".toList, 0, 7, none, some ⟨0, 0⟩⟩,
      ⟨.ident, "y".toList, 9, 1, some 6, some ⟨0, 3⟩⟩] := by decide +kernel
  have hrealigned : Row.Realigned [⟨.comment .whole, " c ".toList, 0, 7, none, some ⟨0, 0⟩⟩,
      ⟨.ident, "y".toList, 9, 1, some 6, some ⟨0, 3⟩⟩]
      [⟨.comment .whole, " c ".toList, 0, 7, none, some ⟨0, 0⟩⟩]
      ⟨.ident, "y".toList, 9, 1, some 6, some ⟨0, 3⟩⟩ [] 6 :=
    ⟨rfl, List.cons_ne_nil _ _, by decide, rfl, rfl⟩
  exact ⟨hlines, _, _, _, hrow, hrealigned, .singleton _,
    keepsComments_iff hlines hrow rfl hrealigned (.singleton _)⟩

end Text

end TlaGlyph
