import TlaGlyph.Proofs.Grid.Rescan
import TlaGlyph.Proofs.Line.Emission
import TlaGlyph.Proofs.Line.Writing

namespace TlaGlyph

namespace Token

-- The tokens stand side by side, and the end of one and the beginning of the other make a mark that
-- begins a comment.
def Glues (previous next : Token) : Prop :=
  (∃ column, previous.outputColumn = some column ∧
    next.outputColumn = some (column + (previous.emission .toUnicode).length)) ∧
  (previous.emission .toUnicode).getLast?.any Text.opensMark = true ∧
  (next.emission .toUnicode).head? = some '*'

-- What the token reads does not depend on what follows it, or begins no comment and no string.
inductive Stable (token : Token) : Prop
  | plain (hkind : token.isComment = false) (hne : token.emission .toUnicode ≠ [])
      (hunmarked : (token.emission .toUnicode).Unmarked)
  | string (hkind : token.kind = .string) (htext : Lexeme.Within token.text)
  | whole (hkind : token.kind = .comment .whole) (htext : Comment.Inside 1 token.text)

-- The token as it is read back from the column where it was written.
def landed (token : Token) : Token := ofText token.kind token.text (token.outputColumn.getD 0)

end Token

namespace Row

open Lexeme (isInert)

-- The zone ends where something may begin, or where a gap does.
theorem comments_ofCode_zone {zone rest : Text} (hzone : zone.Unmarked)
    (hrest : rest.head?.all (!isInert ·) = true) (column : Nat) :
    (ofCode column (zone ++ rest)).1.comments = (ofCode (column + zone.length) rest).1.comments ∧
      (ofCode column (zone ++ rest)).2 = (ofCode (column + zone.length) rest).2 := by
  have hrun : Text.run isInert rest = 0 := by
    cases rest with
    | nil => rfl
    | cons c rest => exact Text.run_cons_of_neg (by simpa using hrest) rest
  have hstar : rest.head? ≠ some '*' := by
    intro hhead
    rw [hhead] at hrest
    cases hrest
  obtain ⟨count, hcount, hsame⟩ := exists_comments_ofCode hzone hstar column
  obtain rfl : count = 0 := by omega
  exact hsame

theorem comments_cons_of_comment {token : Token} (h : token.isComment = true) (row : Row) :
    comments (token :: row) = token :: comments row :=
  List.filter_cons_of_pos h

theorem comments_cons_of_code {token : Token} (h : token.isComment = false) (row : Row) :
    comments (token :: row) = comments row :=
  List.filter_cons_of_neg (by simp [h])

end Row

-- Text that has been read up to the zone at its end, which may go on.
structure Passed (column : Nat) (text : Text) (comments : Row) (start : Nat) (zone : Text) :
    Prop where
  unmarked : zone.Unmarked
  length : column + text.length = start + zone.length
  reads : ∀ rest, (Row.ofCode column (text ++ rest)).1.comments =
      comments ++ (Row.ofCode start (zone ++ rest)).1.comments ∧
    (Row.ofCode column (text ++ rest)).2 = (Row.ofCode start (zone ++ rest)).2

theorem Passed.trans {column start later : Nat} {text zone more last : Text} {first second : Row}
    (h : Passed column text first start zone) (hmore : Passed start (zone ++ more) second later last) :
    Passed column (text ++ more) (first ++ second) later last := by
  refine ⟨hmore.unmarked, ?_, fun rest => ?_⟩
  · have := h.length
    have := hmore.length
    simp only [List.length_append] at this ⊢
    omega
  · obtain ⟨hcomments, hdepth⟩ := h.reads (more ++ rest)
    obtain ⟨hcomments', hdepth'⟩ := hmore.reads rest
    rw [List.append_assoc, hcomments, hdepth, ← List.append_assoc zone, hcomments', hdepth',
      List.append_assoc]
    exact ⟨rfl, rfl⟩

-- Behind a piece that is read for itself nothing is left of the zone.
theorem Passed.of_closed {column count : Nat} {zone piece : Text} {c : Char} {found : Row}
    (hspaces : (zone ++ Text.spaces count).Unmarked) (hc : Lexeme.isInert c = false)
    (hread : ∀ rest,
      (Row.ofCode (column + (zone ++ Text.spaces count).length) (c :: piece ++ rest)).1.comments =
          found ++ (Row.ofCode (column + (zone ++ Text.spaces count).length + (c :: piece).length)
            rest).1.comments ∧
        (Row.ofCode (column + (zone ++ Text.spaces count).length) (c :: piece ++ rest)).2 =
          (Row.ofCode (column + (zone ++ Text.spaces count).length + (c :: piece).length) rest).2) :
    Passed column (zone ++ (Text.spaces count ++ c :: piece)) found
      (column + (zone ++ Text.spaces count).length + (c :: piece).length) [] := by
  refine ⟨trivial, ?_, fun rest => ?_⟩
  · simp only [List.length_append, List.length_nil]
    omega
  · have hhead : (c :: piece ++ rest).head?.all (!Lexeme.isInert ·) = true := by simp [hc]
    obtain ⟨hcomments, hdepth⟩ := Row.comments_ofCode_zone hspaces hhead column
    obtain ⟨hfound, hleft⟩ := hread rest
    rw [← List.append_assoc, List.append_assoc, hcomments, hdepth, hfound, hleft]
    exact ⟨rfl, rfl⟩

namespace Token.Stable

theorem endsLine {token : Token} (h : token.Stable) : token.endsLine = false := by
  cases h with
  | plain hcode => exact Row.endsLine_code hcode
  | string hkind => simp [Token.endsLine, commentKind?, hkind, Kind.commentKind?]
  | whole hkind =>
      simp [Token.endsLine, commentKind?, hkind, Kind.commentKind?, CommentKind.endsLine]

variable {token : Token} {column count start : Nat} {zone : Text}

-- One token behind a zone. Its end is a zone of its own if nothing can be added to what it is.
theorem passed (h : token.Stable) (hcolumn : token.outputColumn = some (column + zone.length + count))
    (hzone : zone.Unmarked)
    (hjoin : count = 0 → zone.getLast?.any Text.opensMark = true →
      (token.emission .toUnicode).head? ≠ some '*') :
    ∃ start zone', Passed column (zone ++ (Text.spaces count ++ token.emission .toUnicode))
        (Row.comments [token.landed]) start zone' ∧
      (zone'.getLast?.any Text.opensMark = true →
        (token.emission .toUnicode).getLast?.any Text.opensMark = true) := by
  have hspaces := Text.unmarked_append_spaces hzone count
  cases h with
  | plain hkind hne hunmarked =>
      have hlanded : token.landed.isComment = false := hkind
      refine ⟨column, zone ++ (Text.spaces count ++ token.emission .toUnicode), ⟨?_, rfl, ?_⟩, ?_⟩
      · rw [← List.append_assoc]
        refine Text.unmarked_append.mpr ⟨hspaces, hunmarked, fun hlast => ?_⟩
        cases count with
        | zero => exact hjoin rfl (by simpa [Text.spaces] using hlast)
        | succ count =>
            rw [Text.spaces, List.replicate_succ', ← List.append_assoc, List.getLast?_concat] at hlast
            cases hlast
      · intro rest
        rw [Row.comments_cons_of_code hlanded]
        exact ⟨rfl, rfl⟩
      · intro hlast
        rw [← List.append_assoc, List.getLast?_append_of_ne_nil _ hne] at hlast
        exact hlast
  | string hkind htext =>
      have hemission : token.emission .toUnicode = '"' :: (token.text ++ ['"']) := by
        simp [Token.emission, hkind, Token.spelling, Kind.openMark, Kind.closeMark]
      have hlanded : token.landed.isComment = false := by
        change token.kind.isComment = false
        rw [hkind]
        rfl
      rw [hemission, Row.comments_cons_of_code hlanded]
      refine ⟨_, [], .of_closed hspaces rfl fun rest => ?_, by simp⟩
      have hpiece : '"' :: (token.text ++ ['"']) ++ rest = '"' :: (token.text ++ '"' :: rest) := by simp
      have hlength : ('"' :: (token.text ++ ['"'])).length = token.text.length + 2 := by simp
      rw [hpiece, hlength, Row.ofCode_string _ _ htext, Row.comments_cons_of_code rfl]
      exact ⟨rfl, rfl⟩
  | whole hkind htext =>
      have hemission : token.emission .toUnicode =
          '(' :: '*' :: (token.text ++ ['*', ')']) := by
        simp [Token.emission, hkind, CommentKind.emission, CommentKind.openMark,
          CommentKind.closeMark]
      have hlanded : token.landed =
          Token.ofText (.comment .whole) token.text (column + (zone ++ Text.spaces count).length) := by
        simp [Token.landed, hkind, hcolumn, Nat.add_assoc]
      rw [hemission, hlanded, Row.comments_cons_of_comment rfl]
      refine ⟨_, [], .of_closed hspaces rfl fun rest => ?_, by simp⟩
      have hpiece : '(' :: '*' :: (token.text ++ ['*', ')']) ++ rest =
          '(' :: '*' :: (token.text ++ '*' :: ')' :: rest) := by simp
      have hlength : ('(' :: '*' :: (token.text ++ ['*', ')'])).length = token.text.length + 4 := by simp
      rw [hpiece, hlength, Row.ofCode_whole _ _ htext, Row.comments_cons_of_comment rfl]
      exact ⟨rfl, rfl⟩

end Token.Stable

-- Reading comes past the tokens, and what is left is a zone that ends no later than they do.
theorem Laid.exists_passed {width : Nat} {row : Row} {text : Text}
    (h : Laid .toUnicode width row text) (hstable : ∀ token ∈ row, token.Stable)
    (hclear : row.IsChain fun previous next => ¬ previous.Glues next) {column : Nat} {zone : Text}
    (hwidth : column + zone.length = width) (hzone : zone.Unmarked)
    (hjoin : ∀ token, row.head? = some token → token.outputColumn = some width →
      zone.getLast?.any Text.opensMark = true → (token.emission .toUnicode).head? ≠ some '*') :
    ∃ start zone', Passed column (zone ++ text) (Row.comments (row.map Token.landed)) start zone' := by
  induction h generalizing column zone with
  | nil width =>
      refine ⟨column, zone, hzone, by simp, fun rest => ?_⟩
      rw [List.append_nil]
      exact ⟨rfl, rfl⟩
  | @cons width count token rest text hcolumn hrest ih =>
      subst hwidth
      obtain ⟨start, zone', hpassed, hlast⟩ := (hstable token (by simp)).passed hcolumn hzone
        (fun hzero => hjoin token rfl (by rw [hcolumn, hzero, Nat.add_zero]))
      have hlength := hpassed.length
      simp only [List.length_append, Text.length_spaces] at hlength
      have hnext : ∀ next, rest.head? = some next →
          next.outputColumn =
            some (column + zone.length + count + (token.emission .toUnicode).length) →
          zone'.getLast?.any Text.opensMark = true → (next.emission .toUnicode).head? ≠ some '*' := by
        intro next hnext houtput hopens hhead
        cases rest with
        | nil => cases hnext
        | cons other rest =>
            obtain rfl := Option.some.inj hnext
            exact List.rel_of_isChain_cons_cons hclear
              ⟨⟨_, hcolumn, houtput⟩, hlast hopens, hhead⟩
      have hstart : start + zone'.length =
          column + zone.length + count + (token.emission .toUnicode).length := by omega
      obtain ⟨later, last, hmore⟩ := ih (fun other hother => hstable other (by simp [hother]))
        (List.isChain_of_isChain_cons hclear) hstart hpassed.unmarked hnext
      have hboth := hpassed.trans hmore
      rw [← Row.comments_append] at hboth
      exact ⟨later, last, by simpa [List.append_assoc] using hboth⟩

theorem Laid.exists_passed_self {start : Nat} {row : Row} {text : Text}
    (h : Laid .toUnicode start row text) (hstable : ∀ token ∈ row, token.Stable)
    (hclear : row.IsChain fun previous next => ¬ previous.Glues next) :
    ∃ later zone, Passed start text (Row.comments (row.map Token.landed)) later zone := by
  have hwidth : start + ([] : Text).length = start := rfl
  exact h.exists_passed hstable hclear hwidth trivial (by simp)

end TlaGlyph
