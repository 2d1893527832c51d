import Mathlib.Data.List.Chain
import TlaGlyph.Proofs.Line.Ends

namespace TlaGlyph

namespace Laid

variable {direction : Direction} {width : Nat} {row other : Row} {text more : Text}

theorem append (h : Laid direction width row text)
    (hmore : Laid direction (width + text.length) other more) :
    Laid direction width (row ++ other) (text ++ more) := by
  induction h with
  | nil width => simpa using hmore
  | @cons width count token rest text hcolumn hrest ih =>
      rw [List.cons_append, List.append_assoc]
      refine .cons hcolumn (ih ?_)
      simpa [Nat.add_assoc] using hmore

theorem exists_append (h : Laid direction width (row ++ other) text) :
    ∃ first last, text = first ++ last ∧ Laid direction width row first ∧
      Laid direction (width + first.length) other last := by
  induction row generalizing width text with
  | nil => exact ⟨[], text, rfl, .nil width, h⟩
  | cons token row ih =>
      cases h with
      | @cons _ count _ _ tail hcolumn hrest =>
          obtain ⟨first, last, rfl, hfirst, hlast⟩ := ih hrest
          refine ⟨Text.spaces count ++ token.emission direction ++ first, last, by simp,
            .cons hcolumn hfirst, ?_⟩
          simpa [Nat.add_assoc] using hlast

theorem exists_of_mem (h : Laid direction width row text) {token : Token} (htoken : token ∈ row) :
    ∃ column, token.outputColumn = some column ∧ width ≤ column ∧
      column + (token.emission direction).length ≤ width + text.length := by
  induction h with
  | nil => cases htoken
  | @cons width count head rest text hcolumn hrest ih =>
      simp only [List.length_append, Text.length_spaces]
      rcases List.mem_cons.mp htoken with rfl | htoken
      · exact ⟨_, hcolumn, Nat.le_add_right _ _, by omega⟩
      · obtain ⟨column, houtput, hle, hend⟩ := ih htoken
        exact ⟨column, houtput, by omega, by omega⟩

end Laid

namespace Row

-- The deferred comments as the tokens that they are on the line, from `column` on.
def deferredAt (column : Nat) : Row → Row
  | [] => []
  | comment :: rest =>
    (Token.ofText (.comment .whole) comment.text 0).writtenAt (column + 1) ::
      deferredAt (column + (Text.deferred comment.text).length) rest

theorem laid_deferredAt (column : Nat) (comments : Row) :
    Laid .toUnicode column (deferredAt column comments)
      (comments.flatMap (Text.deferred ·.text)) := by
  induction comments generalizing column with
  | nil => exact .nil column
  | cons comment comments ih =>
      have hemission (width : Nat) :
          Text.deferred comment.text = Text.spaces 1 ++ Token.emission .toUnicode
            ((Token.ofText (.comment .whole) comment.text 0).writtenAt width) := by
        simp [Text.deferred, Text.spaces, Token.emission, Token.ofText, Token.writtenAt,
          CommentKind.emission, CommentKind.openMark, CommentKind.closeMark]
      rw [List.flatMap_cons, deferredAt, hemission (column + 1)]
      refine .cons rfl ?_
      rw [Nat.add_assoc, ← Text.length_spaces 1, ← List.length_append]
      exact ih _

theorem mem_deferredAt {column : Nat} {comments : Row} {token : Token}
    (h : token ∈ deferredAt column comments) :
    token.kind = .comment .whole ∧ ∃ comment ∈ comments, token.text = comment.text := by
  induction comments generalizing column with
  | nil => cases h
  | cons comment comments ih =>
      rcases List.mem_cons.mp h with rfl | h
      · exact ⟨rfl, comment, by simp, rfl⟩
      · obtain ⟨hkind, other, hother, htext⟩ := ih h
        exact ⟨hkind, other, List.mem_cons_of_mem _ hother, htext⟩

theorem text_deferredAt (column : Nat) (comments : Row) :
    (deferredAt column comments).map Token.text = comments.map Token.text := by
  induction comments generalizing column with
  | nil => rfl
  | cons comment comments ih => exact congrArg (comment.text :: ·) (ih _)

-- A whole comment begins with a mark of its own.
theorem not_glues_of_whole {previous next : Token} (h : next.kind = .comment .whole) :
    ¬ previous.Glues next := by
  rintro ⟨-, -, hhead⟩
  simp [Token.emission, h, CommentKind.emission, CommentKind.openMark] at hhead

theorem isChain_deferredAt {row : Row} (h : row.IsChain fun previous next => ¬ previous.Glues next)
    (column : Nat) (comments : Row) :
    (row ++ deferredAt column comments).IsChain fun previous next => ¬ previous.Glues next := by
  refine List.isChain_append.mpr ⟨h, ?_, ?_⟩
  · refine List.Pairwise.isChain (List.pairwise_of_forall_mem_list fun previous _ next hnext => ?_)
    exact not_glues_of_whole (mem_deferredAt hnext).1
  · intro previous _ next hnext
    exact not_glues_of_whole (mem_deferredAt (List.mem_of_head? hnext)).1

-- The texts of the whole comments of a row.
def wholeTexts (row : Row) : List Text := (row.filter (·.kind = .comment .whole)).map Token.text

theorem wholeTexts_append (row other : Row) :
    wholeTexts (row ++ other) = wholeTexts row ++ wholeTexts other := by
  rw [wholeTexts, List.filter_append, List.map_append]
  rfl

theorem wholeTexts_cons_of_ne {token : Token} (h : token.kind ≠ .comment .whole) (row : Row) :
    wholeTexts (token :: row) = wholeTexts row := by
  rw [wholeTexts, List.filter_cons_of_neg (by simpa using h), wholeTexts]

theorem wholeTexts_cons_of_eq {token : Token} (h : token.kind = .comment .whole) (row : Row) :
    wholeTexts (token :: row) = token.text :: wholeTexts row := by
  rw [wholeTexts, List.filter_cons_of_pos (by simpa using h), List.map_cons, wholeTexts]

theorem wholeTexts_comments (row : Row) : wholeTexts (comments row) = wholeTexts row := by
  rw [wholeTexts, comments, List.filter_filter]
  congr 1
  apply List.filter_congr
  intro token _
  by_cases hkind : token.kind = .comment .whole
  · simp [Token.isComment, hkind, Kind.isComment, Kind.commentKind?]
  · simp [hkind]

theorem wholeTexts_congr {row other : Row} (h : row.map Token.kind = other.map Token.kind)
    (htext : row.map Token.text = other.map Token.text) : wholeTexts row = wholeTexts other := by
  induction row generalizing other with
  | nil =>
      cases other with
      | nil => rfl
      | cons => cases h
  | cons token row ih =>
      cases other with
      | nil => cases h
      | cons twin other =>
          obtain ⟨hkind, hkinds⟩ := List.cons.inj h
          obtain ⟨htoken, htexts⟩ := List.cons.inj htext
          have hrest := ih hkinds htexts
          simp only [wholeTexts, List.filter_cons, hkind] at hrest ⊢
          split
          · rw [List.map_cons, List.map_cons, htoken, hrest]
          · exact hrest

theorem wholeTexts_landed (row : Row) : wholeTexts (row.map Token.landed) = wholeTexts row :=
  wholeTexts_congr (by rw [List.map_map]; rfl) (by rw [List.map_map]; rfl)

theorem wholeTexts_deferredAt (column : Nat) (comments : Row) :
    wholeTexts (deferredAt column comments) = comments.map Token.text := by
  rw [← text_deferredAt column, wholeTexts, List.filter_eq_self.mpr]
  intro token htoken
  simpa using (mem_deferredAt htoken).1

end Row

namespace Passed

variable {column start : Nat} {text zone : Text} {found : Row}

theorem ofCode_end (h : Passed column text found start zone) :
    (Row.ofCode column text).1.comments = found ∧ (Row.ofCode column text).2 = 0 := by
  obtain ⟨hcomments, hdepth⟩ := h.reads []
  obtain ⟨hzone, hnone⟩ := @Row.comments_ofCode_zone zone [] h.unmarked rfl start
  rw [List.append_nil] at hcomments hdepth
  rw [hcomments, hdepth, hzone, hnone, Row.ofCode_nil]
  exact ⟨List.append_nil found, rfl⟩

theorem ofCode_behind (h : Passed column text found start zone) (rest : Text) :
    (Row.ofCode column (text ++ ' ' :: rest)).1.comments =
        found ++ (Row.ofCode (column + text.length + 1) rest).1.comments ∧
      (Row.ofCode column (text ++ ' ' :: rest)).2 =
        (Row.ofCode (column + text.length + 1) rest).2 := by
  obtain ⟨hcomments, hdepth⟩ := h.reads (' ' :: rest)
  obtain ⟨hzone, hnone⟩ := @Row.comments_ofCode_zone zone (' ' :: rest) h.unmarked rfl start
  have hgap : [' '].all Lexeme.isGap = true := rfl
  have hspace := Row.ofCode_gap hgap (start + zone.length) rest
  rw [List.singleton_append, List.length_singleton, ← h.length] at hspace
  rw [hcomments, hdepth, hzone, hnone, ← h.length, hspace]
  exact ⟨rfl, rfl⟩

end Passed

-- Reading comes past the tokens and the comments that are deferred behind them.
theorem Laid.exists_passed_deferred {start : Nat} {row comments : Row} {text : Text}
    (h : Laid .toUnicode start row text) (hstable : ∀ token ∈ row, token.Stable)
    (hclear : row.IsChain fun previous next => ¬ previous.Glues next)
    (hinside : ∀ comment ∈ comments, Comment.Inside 1 comment.text) :
    ∃ later zone, Passed start (text ++ comments.flatMap (Text.deferred ·.text))
      (Row.comments ((row ++ Row.deferredAt (start + text.length) comments).map Token.landed))
      later zone := by
  have hall : ∀ token ∈ row ++ Row.deferredAt (start + text.length) comments, token.Stable := by
    intro token htoken
    rcases List.mem_append.mp htoken with htoken | htoken
    · exact hstable token htoken
    · obtain ⟨hkind, comment, hcomment, htext⟩ := Row.mem_deferredAt htoken
      exact .whole hkind (htext ▸ hinside comment hcomment)
  exact (h.append (Row.laid_deferredAt _ comments)).exists_passed_self hall
    (Row.isChain_deferredAt hclear _ comments)

end TlaGlyph
