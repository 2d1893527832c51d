import Mathlib.Data.List.Basic
import TlaGlyph.Line.Draft
import TlaGlyph.Proofs.Line.Placement

namespace TlaGlyph

namespace Deferral

-- The comments of a row as they are held, its first token being the one at `item`.
def held (item : Nat) : Row → List Entry
  | [] => []
  | token :: rest =>
    (token.commentKind?.map (Entry.mk item · token.text)).toList ++ held (item + 1) rest

-- The three states. The first two forget nothing but the comments in front.
def waiting (comments : Row) : Deferral := { leading := held 0 comments }

def settled : Deferral := { onlyComments := false }

def yielding (comments : Row) : Deferral :=
  { leading := held 0 comments, onlyComments := false, deferring := true }

theorem held_append (item : Nat) (first last : Row) :
    held item (first ++ last) = held item first ++ held (item + first.length) last := by
  induction first generalizing item with
  | nil => rfl
  | cons token first ih =>
    simp only [List.cons_append, held, ih, List.append_assoc, List.length_cons]
    rw [show item + 1 + first.length = item + (first.length + 1) by omega]

theorem exists_kind {token : Token} (h : token.isComment = true) :
    ∃ kind, token.kind = .comment kind := by
  cases hk : token.kind with
  | comment kind => exact ⟨kind, rfl⟩
  | _ => simp [Token.isComment, Kind.isComment, Kind.commentKind?, hk] at h

theorem ne_comment {token : Token} (h : token.isComment = false) (kind : CommentKind) :
    token.kind ≠ .comment kind := by
  intro hk
  simp [Token.isComment, Kind.isComment, Kind.commentKind?, hk] at h

theorem observe_code {token : Token} (h : token.isComment = false) (deferral : Deferral)
    (item : Nat) :
    deferral.observe item token =
      { deferral with
        onlyComments := false
        leading := if deferral.deferring then deferral.leading else [] } := by
  unfold observe
  split
  · next kind hk => exact absurd hk (ne_comment h kind)
  · rfl

theorem observe_waiting {token : Token} (h : token.isComment = true) (comments : Row) :
    (waiting comments).observe comments.length token = waiting (comments ++ [token]) := by
  obtain ⟨kind, hk⟩ := exists_kind h
  simp [observe, waiting, hk, held_append, held, Token.commentKind?, Kind.commentKind?]

theorem observe_waiting_code {token : Token} (h : token.isComment = false) (comments : Row)
    (item : Nat) : (waiting comments).observe item token = settled := by
  rw [observe_code h]
  rfl

theorem observe_arm_waiting {token : Token} (h : token.isComment = false) (comments : Row)
    (item : Nat) : (waiting comments).arm.observe item token = yielding comments := by
  rw [observe_code h]
  rfl

theorem observe_settled (item : Nat) (token : Token) : settled.observe item token = settled := by
  unfold observe
  split <;> rfl

theorem observe_yielding (comments : Row) (item : Nat) (token : Token) :
    (yielding comments).observe item token = yielding comments := by
  unfold observe
  split <;> rfl

theorem flatMap_held {comments : Row} (h : ∀ comment ∈ comments, comment.isComment = true)
    (item : Nat) :
    (held item comments).flatMap (Text.deferred ·.text) =
      comments.flatMap (Text.deferred ·.text) := by
  induction comments generalizing item with
  | nil => rfl
  | cons comment comments ih =>
    obtain ⟨kind, hk⟩ := exists_kind (h comment (by simp))
    have hrest := ih (fun other hother => h other (List.mem_cons_of_mem _ hother)) (item + 1)
    simp [held, Token.commentKind?, Kind.commentKind?, hk, hrest]

theorem any_held {comments : Row} (h : ∀ comment ∈ comments, comment.isComment = true)
    (first item : Nat) :
    (held first comments).any (·.item = item) =
      decide (first ≤ item ∧ item < first + comments.length) := by
  induction comments generalizing first with
  | nil =>
    simp only [held, List.any_nil, List.length_nil]
    exact (decide_eq_false (by omega)).symm
  | cons comment comments ih =>
    obtain ⟨kind, hk⟩ := exists_kind (h comment (by simp))
    have hrest := ih (fun other hother => h other (List.mem_cons_of_mem _ hother)) (first + 1)
    simp only [held, Token.commentKind?, Kind.commentKind?, hk, Option.map_some,
      Option.toList_some, List.singleton_append, List.any_cons, hrest, List.length_cons]
    rw [← Bool.decide_or]
    exact decide_eq_decide.mpr (by omega)

end Deferral

namespace Row

-- A last token that ends its line, which a realigned row writes behind the comments it defers.
def ending (row : Row) : Option Token := row.getLast?.filter Token.endsLine

-- The tokens of a realigned row that are written as usual.
def body (row : Row) : Row := if row.getLast?.any Token.endsLine then row.dropLast else row

theorem ending_cons {token : Token} {row : Row} (h : row = [] → token.endsLine = false) :
    ending (token :: row) = ending row := by
  cases row with
  | nil => simp [ending, h rfl]
  | cons next rest => simp [ending, List.getLast?_cons_cons]

theorem body_cons {token : Token} {row : Row} (h : row = [] → token.endsLine = false) :
    body (token :: row) = token :: body row := by
  cases row with
  | nil => simp [body, h rfl]
  | cons next rest =>
    unfold body
    rw [List.getLast?_cons_cons]
    split <;> rfl

theorem endsLine_code {token : Token} (h : token.isComment = false) : token.endsLine = false := by
  have hnone : token.commentKind? = none := by
    simpa [Token.isComment, Kind.isComment, Token.commentKind?] using h
  rw [Token.endsLine, hnone]
  rfl

theorem ending_append {row : Row} (h : row ≠ []) (front : Row) :
    ending (front ++ row) = ending row := by
  unfold ending
  rw [List.getLast?_append, List.getLast?_eq_some_getLast h, Option.some_or]

theorem body_append_ending (row : Row) : row.body ++ row.ending.toList = row := by
  unfold body ending
  cases hlast : row.getLast? with
  | none => simp
  | some last =>
      have hrow := List.dropLast_append_getLast? last hlast
      by_cases hends : last.endsLine = true
      · simpa [hends, Option.filter] using hrow
      · simp [hends, Option.filter]

theorem body_eq_self {row : Row} (h : row.ending = none) : row.body = row := by
  have hrow := row.body_append_ending
  rwa [h, Option.toList_none, List.append_nil] at hrow

theorem ending_eq_none {row : Row} (h : ∀ token ∈ row, token.endsLine = false) :
    row.ending = none := by
  unfold ending
  cases hlast : row.getLast? with
  | none => rfl
  | some last => simp [Option.filter, h last (List.mem_of_getLast? hlast)]

theorem takeWhile_isComment {comments rest : Row} {code : Token}
    (hcomments : ∀ comment ∈ comments, comment.isComment = true) (hcode : code.isComment = false) :
    (comments ++ code :: rest).takeWhile Token.isComment = comments := by
  rw [List.takeWhile_append_of_pos hcomments, List.takeWhile_cons_of_neg (by simp [hcode]),
    List.append_nil]

-- What stays in front of a row whose leading comments have given way.
def front (row : Row) : Text :=
  if row.head?.any (·.kind = .comment .closing) then ['*', ')'] else []

end Row

namespace Draft

theorem closesComment_waiting (comments : Row)
    (h : ∀ comment ∈ comments, comment.isComment = true) :
    (Deferral.waiting comments).closesComment =
      comments.head?.any (·.kind = .comment .closing) := by
  cases comments with
  | nil => rfl
  | cons comment comments =>
    obtain ⟨kind, hk⟩ := Deferral.exists_kind (h comment (by simp))
    simp [Deferral.closesComment, Deferral.waiting, Deferral.held, Token.commentKind?,
      Kind.commentKind?, hk]

end Draft

-- The tokens stand on a line one behind the other from column `width` on, each where its placement
-- has put it, and `text` is what they read. The token in front of them ended at `stop` in the source.
inductive Placed (direction : Direction) (above : Grid) : Bool → Nat → Nat → Row → Text → Prop
  | nil (onlyComments : Bool) (stop width : Nat) :
      Placed direction above onlyComments stop width [] []
  | cons {onlyComments : Bool} {stop width count : Nat} {token : Token} {rest : Row} {text : Text}
      (hspaced : token.Spaced above onlyComments stop width count)
      (hcolumn : token.outputColumn = some (width + count))
      (hallows : direction.allows token.column (width + count) = true)
      (hrest : Placed direction above (onlyComments && token.isComment) token.finish
        (width + count + (token.emission direction).length) rest text) :
      Placed direction above onlyComments stop width (token :: rest)
        (Text.spaces count ++ token.emission direction ++ text)

theorem Placed.cons_writtenAt {direction : Direction} {above : Grid} {onlyComments : Bool}
    {stop width count : Nat} {token : Token} {rest : Row} {text : Text}
    (hspaced : token.Spaced above onlyComments stop width count)
    (hallows : direction.allows token.column (width + count) = true)
    (hrest : Placed direction above (onlyComments && token.isComment) token.finish
      (width + count + (token.emission direction).length) rest text) :
    Placed direction above onlyComments stop width (token.writtenAt (width + count) :: rest)
      (Text.spaces count ++ token.emission direction ++ text) :=
  .cons (hspaced.writtenAt _) rfl hallows hrest

-- The tokens stand in the text one behind the other, each behind some spaces and at its output
-- column. The text begins at `column` of its line.
inductive Laid (direction : Direction) : Nat → Row → Text → Prop
  | nil (column : Nat) : Laid direction column [] []
  | cons {column count : Nat} {token : Token} {rest : Row} {text : Text}
      (hcolumn : token.outputColumn = some (column + count))
      (hrest : Laid direction (column + count + (token.emission direction).length) rest text) :
      Laid direction column (token :: rest)
        (Text.spaces count ++ token.emission direction ++ text)

theorem Placed.laid {direction : Direction} {above : Grid} {onlyComments : Bool} {stop width : Nat}
    {row : Row} {text : Text} (h : Placed direction above onlyComments stop width row text) :
    Laid direction width row text := by
  induction h with
  | nil => exact .nil _
  | cons _ hcolumn _ _ ih => exact .cons hcolumn ih

namespace Draft

variable {direction : Direction} {above : Grid} {position : Position} {previous? : Option Token}
  {token written : Token} {draft next : Draft}

theorem put_ok {count : Nat}
    (h : draft.put direction position token count = (next, .ok written)) :
    direction.allows token.column (draft.line.length + count) = true ∧
      written = token.writtenAt (draft.line.length + count) ∧
      next = ⟨draft.line ++ Text.spaces count ++ token.emission direction,
        draft.deferral.observe position.item token⟩ := by
  simp only [put, List.length_append, Text.length_spaces] at h
  split at h
  · next hallows =>
    simp only [Prod.mk.injEq, Except.ok.injEq] at h
    exact ⟨hallows, h.2.symm, h.1.symm⟩
  · cases congrArg Prod.snd h

-- What is left of the line when its comments give way.
def cleared (draft : Draft) : Text := if draft.deferral.closesComment then ['*', ')'] else []

theorem realign_ok {column : Nat}
    (h : draft.realign direction position token column = (next, .ok written)) :
    draft.cleared.length ≤ column ∧ direction.allows token.column column = true ∧
      written = token.writtenAt column ∧
      next = ⟨draft.cleared ++ Text.spaces (column - draft.cleared.length) ++
        token.emission direction, draft.deferral.arm.observe position.item token⟩ := by
  change (if draft.cleared.length ≤ column then
      (Draft.mk draft.cleared draft.deferral.arm).put direction position token
        (column - draft.cleared.length)
    else (⟨draft.cleared, draft.deferral.arm⟩,
      .error (.negativeSpacing position token.display))) = _ at h
  split at h
  · next hle =>
    obtain ⟨hallows, hwritten, hnext⟩ := put_ok h
    have hcolumn : draft.cleared.length + (column - draft.cleared.length) = column := by omega
    rw [hcolumn] at hallows hwritten
    exact ⟨hle, hallows, hwritten, hnext⟩
  · cases congrArg Prod.snd h

-- A token that was written went behind the line as it was, or in the place of its comments.
theorem write_ok (h : draft.write direction above position previous? token = (next, .ok written)) :
    (∃ count, token.Spaced above draft.deferral.onlyComments (Token.stopOf previous?)
      draft.line.length count ∧
      direction.allows token.column (draft.line.length + count) = true ∧
      written = token.writtenAt (draft.line.length + count) ∧
      next = ⟨draft.line ++ Text.spaces count ++ token.emission direction,
        draft.deferral.observe position.item token⟩) ∨
    (direction = .toUnicode ∧ ∃ column,
      token.Crowded above draft.deferral.onlyComments draft.line.length column ∧
      draft.cleared.length ≤ column ∧ direction.allows token.column column = true ∧
      written = token.writtenAt column ∧
      next = ⟨draft.cleared ++ Text.spaces (column - draft.cleared.length) ++
        token.emission direction, draft.deferral.arm.observe position.item token⟩) := by
  unfold write at h
  split at h
  · cases congrArg Prod.snd h
  · next count hplace => exact .inl ⟨count, Token.spaced_of_place hplace, put_ok h⟩
  · next column hplace =>
    obtain ⟨hdirection, hcrowded⟩ := Token.crowded_of_place hplace
    exact .inr ⟨hdirection, column, hcrowded, realign_ok h⟩

variable {item : Nat} {row written : Row} {final : Draft}

theorem writeAll_cons_ok {rest : Row}
    (h : writeAll direction above item previous? draft (token :: rest) = (written, final, .ok ())) :
    (draft.postpones token rest = true ∧ written = token :: rest ∧ final = draft) ∨
    (draft.postpones token rest = false ∧ ∃ next head tail,
      draft.write direction above ⟨above.length, item⟩ previous? token = (next, .ok head) ∧
      writeAll direction above (item + 1) (some token) next rest = (tail, final, .ok ()) ∧
      written = head :: tail) := by
  unfold writeAll at h
  split at h
  · next hpostpones =>
    simp only [Prod.mk.injEq, and_true] at h
    exact .inl ⟨hpostpones, h.1.symm, h.2.symm⟩
  · next hpostpones =>
    split at h
    · cases congrArg (·.2.2) h
    · next next head hwrite =>
      obtain ⟨hwritten, hfinal⟩ := Prod.mk.inj h
      exact .inr ⟨by simpa using hpostpones, next, head, _, hwrite, Prod.ext rfl hfinal,
        hwritten.symm⟩

-- Behind a token that is no comment everything is written in place.
theorem writeAll_settled (hdeferral : draft.deferral = .settled)
    (h : writeAll direction above item previous? draft row = (written, final, .ok ())) :
    final.deferral = .settled ∧ written.map Token.unwritten = row.map Token.unwritten ∧
      ∃ text, final.line = draft.line ++ text ∧
        Placed direction above false (Token.stopOf previous?) draft.line.length written text := by
  induction row generalizing item previous? draft written with
  | nil =>
      cases h
      exact ⟨hdeferral, rfl, [], by simp, .nil _ _ _⟩
  | cons token rest ih =>
      rcases writeAll_cons_ok h with ⟨hpostpones, -, -⟩ | ⟨-, next, head, tail, hwrite, hrest, rfl⟩
      · simp [postpones, hdeferral, Deferral.settled] at hpostpones
      · rcases write_ok hwrite with ⟨count, hspaced, hallows, rfl, rfl⟩ | ⟨-, column, hcrowded, -⟩
        · rw [hdeferral] at hspaced hrest
          rw [Deferral.observe_settled] at hrest
          obtain ⟨hfinal, hsame, text, hline, hplaced⟩ := ih rfl hrest
          refine ⟨hfinal, by simp [hsame], Text.spaces count ++ token.emission direction ++ text,
            by simp [hline], .cons_writtenAt hspaced hallows ?_⟩
          simpa [Nat.add_assoc, Token.stopOf] using hplaced
        · cases (hdeferral ▸ hcrowded.only : Deferral.settled.onlyComments = true)

-- Behind comments that have given way all is written in place but for a token that ends its line.
theorem writeAll_yielding {comments : Row} (hdeferral : draft.deferral = .yielding comments)
    (h : writeAll direction above item previous? draft row = (written, final, .ok ())) :
    final.deferral = .yielding comments ∧
      written.map Token.unwritten = row.map Token.unwritten ∧ written.ending = row.ending ∧
      ∃ text, final.line = draft.line ++ text ∧
        Placed direction above false (Token.stopOf previous?) draft.line.length written.body text := by
  induction row generalizing item previous? draft written with
  | nil =>
      cases h
      exact ⟨hdeferral, rfl, rfl, [], by simp, .nil _ _ _⟩
  | cons token rest ih =>
      rcases writeAll_cons_ok h with ⟨hpostpones, rfl, rfl⟩ | ⟨hgoes, next, head, tail, hwrite, hrest, rfl⟩
      · simp only [postpones, hdeferral, Deferral.yielding, Bool.true_and, Bool.and_eq_true,
          List.isEmpty_iff] at hpostpones
        obtain ⟨rfl, hends⟩ := hpostpones
        refine ⟨hdeferral, rfl, rfl, [], by simp, ?_⟩
        rw [show Row.body [token] = [] by simp [Row.body, hends]]
        exact .nil _ _ _
      · rcases write_ok hwrite with ⟨count, hspaced, hallows, rfl, rfl⟩ | ⟨-, column, hcrowded, -⟩
        · rw [hdeferral] at hspaced hrest
          rw [Deferral.observe_yielding] at hrest
          obtain ⟨hfinal, hsame, hending, text, hline, hplaced⟩ := ih rfl hrest
          have hends : rest = [] → token.endsLine = false := by
            rintro rfl
            simpa [postpones, hdeferral, Deferral.yielding] using hgoes
          have htail : tail = [] → (token.writtenAt (draft.line.length + count)).endsLine = false := by
            rintro rfl
            exact hends (List.map_eq_nil_iff.mp hsame.symm)
          refine ⟨hfinal, by simp [hsame], by rw [Row.ending_cons htail, Row.ending_cons hends, hending],
            Text.spaces count ++ token.emission direction ++ text, by simp [hline], ?_⟩
          rw [Row.body_cons htail]
          refine .cons_writtenAt hspaced hallows ?_
          simpa [Nat.add_assoc, Token.stopOf] using hplaced
        · cases (hdeferral ▸ hcrowded.only : (Deferral.yielding comments).onlyComments = true)

-- How a row ends that is written behind comments. Either all of it is written in place, or the comments
-- give way to the first token that is none.
inductive Finished (above : Grid) (front : Row) (stop : Nat) (line : Text) :
    Direction → Row → Row → Draft → Prop
  | inPlace {direction : Direction} {row written : Row} {text : Text} {deferral : Deferral}
      (hsame : written.map Token.unwritten = row.map Token.unwritten)
      (hplaced : Placed direction above true stop line.length written text)
      (hdeferral : deferral.deferring = false) :
      Finished above front stop line direction row written ⟨line ++ text, deferral⟩
  | realigned {comments rest yielded tail : Row} {token : Token} {column : Nat}
      {hidden text : Text}
      (hcomments : ∀ comment ∈ comments, comment.isComment = true)
      (hyielded : yielded.map Token.unwritten = comments.map Token.unwritten)
      (hhidden : Placed .toUnicode above true stop line.length yielded hidden)
      (hcrowded : token.Crowded above true (line.length + hidden.length) column)
      (hfront : (Row.front (front ++ comments)).length ≤ column)
      (hallows : Direction.toUnicode.allows token.column column = true)
      (hsame : tail.map Token.unwritten = rest.map Token.unwritten)
      (hending : tail.ending = rest.ending)
      (hplaced : Placed .toUnicode above false token.finish
        (column + (token.emission .toUnicode).length) tail.body text) :
      Finished above front stop line .toUnicode (comments ++ token :: rest)
        (yielded ++ token.writtenAt column :: tail)
        ⟨Row.front (front ++ comments) ++
            Text.spaces (column - (Row.front (front ++ comments)).length) ++
            token.emission .toUnicode ++ text,
          .yielding (front ++ comments)⟩

theorem Finished.cons_comment {front : Row} {stop count : Nat} {line : Text}
    (hcomment : token.isComment = true) (hspaced : token.Spaced above true stop line.length count)
    (hallows : direction.allows token.column (line.length + count) = true)
    (h : Finished above (front ++ [token]) token.finish
      (line ++ Text.spaces count ++ token.emission direction) direction row written final) :
    Finished above front stop line direction (token :: row)
      (token.writtenAt (line.length + count) :: written) final := by
  cases h with
  | @inPlace _ _ _ text deferral hsame hplaced hdeferral =>
      have hcons := Placed.cons_writtenAt hspaced hallows
        (by simpa [Nat.add_assoc, hcomment] using hplaced)
      have hline : line ++ Text.spaces count ++ token.emission direction ++ text =
          line ++ (Text.spaces count ++ token.emission direction ++ text) := by simp
      rw [hline]
      exact .inPlace (by simp [hsame]) hcons hdeferral
  | @realigned comments rest yielded tail code column hidden text hcomments hyielded hhidden hcrowded
      hfront hallows' hsame hending hplaced =>
      have hcons := Placed.cons_writtenAt hspaced hallows
        (by simpa [Nat.add_assoc, hcomment] using hhidden)
      have hmoved : front ++ [token] ++ comments = front ++ token :: comments := by simp
      rw [hmoved] at hfront ⊢
      have hwidth : line.length + (Text.spaces count ++ token.emission .toUnicode ++ hidden).length =
          (line ++ Text.spaces count ++ token.emission .toUnicode).length + hidden.length := by
        simp only [List.length_append]
        omega
      rw [← hwidth] at hcrowded
      exact .realigned (by simpa [hcomment] using hcomments) (by simp [hyielded]) hcons hcrowded
        hfront hallows' hsame hending hplaced

theorem Finished.realigned_here {front rest tail : Row} {stop column : Nat} {line text : Text}
    (hcrowded : token.Crowded above true line.length column)
    (hfront : (Row.front front).length ≤ column)
    (hallows : Direction.toUnicode.allows token.column column = true)
    (hsame : tail.map Token.unwritten = rest.map Token.unwritten)
    (hending : tail.ending = rest.ending)
    (hplaced : Placed .toUnicode above false token.finish
      (column + (token.emission .toUnicode).length) tail.body text) :
    Finished above front stop line .toUnicode (token :: rest) (token.writtenAt column :: tail)
      ⟨Row.front front ++ Text.spaces (column - (Row.front front).length) ++
        token.emission .toUnicode ++ text, .yielding front⟩ := by
  have hnone : Finished above front stop line .toUnicode ([] ++ token :: rest)
      ([] ++ token.writtenAt column :: tail)
      ⟨Row.front (front ++ []) ++ Text.spaces (column - (Row.front (front ++ [])).length) ++
        token.emission .toUnicode ++ text, .yielding (front ++ [])⟩ :=
    .realigned (by simp) rfl (.nil _ _ _) hcrowded (by simpa using hfront) hallows hsame hending hplaced
  simpa using hnone

theorem writeAll_waiting {front : Row}
    (hfront : ∀ comment ∈ front, comment.isComment = true)
    (hdeferral : draft.deferral = .waiting front)
    (h : writeAll direction above front.length previous? draft row = (written, final, .ok ())) :
    Finished above front (Token.stopOf previous?) draft.line direction row written final := by
  induction row generalizing front previous? draft written with
  | nil =>
      cases h
      have hend : final.deferral.deferring = false := by rw [hdeferral]; rfl
      have hnothing : Finished above front (Token.stopOf previous?) final.line direction [] []
          ⟨final.line ++ [], final.deferral⟩ := .inPlace rfl (.nil _ _ _) hend
      simpa using hnothing
  | cons token rest ih =>
      rcases writeAll_cons_ok h with ⟨hpostpones, -, -⟩ | ⟨-, next, head, tail, hwrite, hrest, rfl⟩
      · simp [postpones, hdeferral, Deferral.waiting] at hpostpones
      · rcases write_ok hwrite with
          ⟨count, hspaced, hallows, rfl, rfl⟩ | ⟨rfl, column, hcrowded, hle, hallows, rfl, rfl⟩
        · rw [hdeferral] at hspaced hrest
          by_cases hcomment : token.isComment = true
          · rw [Deferral.observe_waiting hcomment] at hrest
            have hlength : front.length + 1 = (front ++ [token]).length := by simp
            rw [hlength] at hrest
            refine .cons_comment hcomment hspaced hallows (ih ?_ rfl hrest)
            simpa [or_imp, forall_and, hcomment] using hfront
          · have hcode : token.isComment = false := by simpa using hcomment
            rw [Deferral.observe_waiting_code hcode] at hrest
            obtain ⟨hfinal, hsame, text, hline, hplaced⟩ := writeAll_settled rfl hrest
            have hcons := Placed.cons_writtenAt hspaced hallows
              (by simpa [Nat.add_assoc, hcode, Token.stopOf] using hplaced)
            obtain ⟨line, deferral⟩ := final
            simp only at hfinal hline
            rw [hline, List.append_assoc, List.append_assoc, ← List.append_assoc (Text.spaces count)]
            exact .inPlace (by simp [hsame]) hcons (by rw [hfinal]; rfl)
        · rw [hdeferral] at hrest hcrowded
          rw [Deferral.observe_arm_waiting hcrowded.code] at hrest
          obtain ⟨hfinal, hsame, hending, text, hline, hplaced⟩ := writeAll_yielding rfl hrest
          have hcleared : draft.cleared = Row.front front := by
            unfold cleared Row.front
            rw [hdeferral, closesComment_waiting front hfront]
          rw [hcleared] at hle hline hplaced
          have hend : final = ⟨Row.front front ++ Text.spaces (column - (Row.front front).length) ++
              token.emission .toUnicode ++ text, .yielding front⟩ := by
            rw [← hfinal, ← hline]
          rw [hend]
          refine .realigned_here hcrowded hle hallows hsame hending ?_
          have hwidth : (Row.front front ++ Text.spaces (column - (Row.front front).length) ++
              token.emission .toUnicode).length = column + (token.emission .toUnicode).length := by
            simp only [List.length_append, Text.length_spaces]
            omega
          rwa [hwidth] at hplaced

end Draft

namespace Row

theorem unwritten_of_map {first last : Row}
    (h : first.map Token.unwritten = last.map Token.unwritten) {item : Nat} {token : Token}
    (htoken : first[item]? = some token) :
    ∃ other, last[item]? = some other ∧ other.unwritten = token.unwritten := by
  have hitem := congrArg (·[item]?) h
  simp only [List.getElem?_map, htoken, Option.map_some] at hitem
  obtain ⟨other, hother, hsame⟩ := Option.map_eq_some_iff.mp hitem.symm
  exact ⟨other, hother, hsame⟩

-- What does not depend on where a token is written is the same of all tokens before and after.
theorem forall_of_unwritten {p : Token → Prop} (hp : ∀ token, p token.unwritten ↔ p token)
    {row written : Row} (hsame : written.map Token.unwritten = row.map Token.unwritten)
    (h : ∀ token ∈ row, p token) : ∀ token ∈ written, p token := by
  intro token htoken
  have hmem : token.unwritten ∈ row.map Token.unwritten := by
    rw [← hsame]
    exact List.mem_map_of_mem htoken
  obtain ⟨twin, htwin, heq⟩ := List.mem_map.mp hmem
  rw [← hp, ← heq, hp]
  exact h twin htwin

-- Only the comments that have given way lose their columns.
theorem unplace_yielding {comments yielded rest : Row}
    (hcomments : ∀ comment ∈ comments, comment.isComment = true)
    (hyielded : yielded.map Token.unwritten = comments.map Token.unwritten) :
    (Deferral.yielding comments).unplace (yielded ++ rest) =
      comments.map Token.unwritten ++ rest := by
  have hlength : yielded.length = comments.length := by
    simpa using congrArg List.length hyielded
  have hany : ∀ item, (Deferral.yielding comments).leading.any (·.item = item) =
      decide (item < comments.length) := by
    intro item
    simp [Deferral.yielding, Deferral.any_held hcomments]
  simp only [Deferral.unplace, hany]
  rw [List.mapIdx_append, ← hyielded]
  congr 1
  · apply List.mapIdx_eq_iff.mpr
    intro item
    rw [List.getElem?_map]
    cases htoken : yielded[item]? with
    | none => rfl
    | some token =>
        have hitem : item < comments.length := hlength ▸ (List.getElem?_eq_some_iff.mp htoken).1
        simp [hitem, Token.unwritten]
  · apply List.mapIdx_eq_iff.mpr
    intro item
    have hitem : ¬item + yielded.length < comments.length := by omega
    simp [hitem]

-- What a row and its line are after the conversion. Comments that have given way are not written in
-- place, and a token that ends its line follows them and stays as it was.
inductive Converted (above : Grid) : Direction → Row → Row → Text → Prop
  | inPlace {direction : Direction} {row written : Row} {line : Text}
      (hsame : written.map Token.unwritten = row.map Token.unwritten)
      (hplaced : Placed direction above true 0 0 written line) :
      Converted above direction row written line
  | realigned {comments yielded rest tail : Row} {token : Token} {column : Nat} {hidden text : Text}
      (hcomments : ∀ comment ∈ comments, comment.isComment = true)
      (hyielded : yielded.map Token.unwritten = comments.map Token.unwritten)
      (hhidden : Placed .toUnicode above true 0 0 yielded hidden)
      (hcrowded : token.Crowded above true hidden.length column)
      (hfront : comments.front.length ≤ column)
      (hallows : Direction.toUnicode.allows token.column column = true)
      (hsame : tail.map Token.unwritten = rest.map Token.unwritten)
      (hending : tail.ending = rest.ending)
      (hplaced : Placed .toUnicode above false token.finish
        (column + (token.emission .toUnicode).length) tail.body text) :
      Converted above .toUnicode (comments ++ token :: rest)
        (comments.map Token.unwritten ++ token.writtenAt column :: tail)
        (comments.front ++ Text.spaces (column - comments.front.length) ++
          token.emission .toUnicode ++ text ++ comments.flatMap (Text.deferred ·.text) ++
          rest.ending.elim [] (' ' :: Token.emission .toUnicode ·))

theorem finish_yielding {comments rest : Row} {token : Token} {line : Text} (direction : Direction)
    (hcomments : ∀ comment ∈ comments, comment.isComment = true) (hcode : token.isComment = false) :
    Draft.finish direction (comments ++ token :: rest) ⟨line, .yielding comments⟩ =
      line ++ comments.flatMap (Text.deferred ·.text) ++
        rest.ending.elim [] (' ' :: Token.emission direction ·) := by
  have hlast : ending (comments ++ token :: rest) = rest.ending :=
    (ending_append (List.cons_ne_nil _ _) _).trans (ending_cons fun _ => endsLine_code hcode)
  rw [← hlast]
  simp [Draft.finish, Deferral.flush, Deferral.yielding, Deferral.flatMap_held hcomments, ending]

-- What a row that is converted comes from, and what one that is not does.
theorem exists_writeAll_of_convert {direction : Direction} {above : Grid} {row written : Row}
    {line : Text} (h : row.convert direction above = (written, .ok line)) :
    ∃ all final, Draft.writeAll direction above 0 none {} row = (all, final, .ok ()) ∧
      (if final.deferral.deferring then final.deferral.unplace all else all) = written ∧
      final.finish direction row = line := by
  cases hall : Draft.writeAll direction above 0 none {} row with
  | mk all rest =>
  obtain ⟨final, result⟩ := rest
  simp only [convert, hall, Prod.mk.injEq] at h
  obtain ⟨hwritten, hline⟩ := h
  cases result with
  | error e => cases hline
  | ok _ => exact ⟨all, final, rfl, hwritten, Except.ok.inj hline⟩

theorem exists_writeAll_of_convert_error {direction : Direction} {above : Grid} {row left : Row}
    {e : ConversionError} (h : row.convert direction above = (left, .error e)) :
    ∃ all final, Draft.writeAll direction above 0 none {} row = (all, final, .error e) ∧
      (if final.deferral.deferring then final.deferral.unplace all else all) = left := by
  cases hall : Draft.writeAll direction above 0 none {} row with
  | mk all rest =>
  obtain ⟨final, result⟩ := rest
  simp only [convert, hall, Prod.mk.injEq] at h
  obtain ⟨hleft, hline⟩ := h
  cases result with
  | ok _ => cases hline
  | error failure =>
      obtain rfl : failure = e := Except.error.inj hline
      exact ⟨all, final, rfl, hleft⟩

-- A row that is converted was written in place or was realigned once.
theorem converted_of_convert {direction : Direction} {above : Grid} {row written : Row}
    {line : Text} (h : row.convert direction above = (written, .ok line)) :
    Converted above direction row written line := by
  obtain ⟨all, final, hall, hwritten, rfl⟩ := exists_writeAll_of_convert h
  have hnone : ∀ comment ∈ ([] : Row), comment.isComment = true := by simp
  have hfinished := Draft.writeAll_waiting hnone rfl hall
  cases hfinished with
  | inPlace hsame hplaced hdeferral =>
      simp only [hdeferral] at hwritten
      subst hwritten
      simpa [Draft.finish, hdeferral] using Converted.inPlace hsame hplaced
  | @realigned comments rest yielded tail token column hidden text hcomments hyielded hhidden
      hcrowded hfront hallows hsame hending hplaced =>
      subst hwritten
      simp only [List.nil_append, List.length_nil, Nat.zero_add] at *
      rw [finish_yielding _ hcomments hcrowded.code]
      simp only [Deferral.yielding, if_true]
      rw [← Deferral.yielding, unplace_yielding hcomments hyielded]
      exact .realigned hcomments hyielded hhidden hcrowded hfront hallows hsame hending hplaced

theorem Converted.unwritten_eq {above : Grid} {direction : Direction} {row written : Row}
    {line : Text} (h : Converted above direction row written line) :
    written.map Token.unwritten = row.map Token.unwritten := by
  cases h with
  | inPlace hsame _ => exact hsame
  | realigned _ _ _ _ _ _ hsame _ _ =>
      simp only [List.map_append, List.map_map, List.map_cons, hsame, Token.unwritten_writtenAt]
      rfl

end Row

end TlaGlyph
