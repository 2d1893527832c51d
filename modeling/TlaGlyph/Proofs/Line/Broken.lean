import TlaGlyph.Proofs.Line.Realigned

namespace TlaGlyph

namespace Row

-- The first whole comment of a text, and those that are read behind it. The block comment of a split
-- line comment has lost its text, and nothing is behind it.
inductive FirstWhole (text first : Text) (texts : List Text) : Prop
  | whole {after : Text} {column depth : Nat} {row : Row}
      (hsuffix : '(' :: '*' :: (first ++ '*' :: ')' :: after) <:+ text)
      (hscan : Scans column after row depth) (hwhole : wholeTexts row = texts)
  | split (hfirst : first = []) (htexts : texts = []) (hline : '\\' ∈ text)

theorem FirstWhole.of_suffix {text rest first : Text} {texts : List Text}
    (h : FirstWhole rest first texts) (hrest : rest <:+ text) : FirstWhole text first texts := by
  cases h with
  | whole hsuffix hscan hwhole => exact .whole (hsuffix.trans hrest) hscan hwhole
  | split hfirst htexts hline => exact .split hfirst htexts (hrest.subset hline)

theorem Scans.firstWhole {column depth : Nat} {text first : Text} {row : Row} {texts : List Text}
    (h : Scans column text row depth) (hwhole : wholeTexts row = first :: texts) :
    FirstWhole text first texts := by
  induction h with
  | nil => cases hwhole
  | @plain _ kind gap text rest _ _ hgap hplain hrest ih =>
      have hkind : kind ≠ .comment .whole := by
        rintro rfl
        cases hplain.isPlain
      rw [wholeTexts_cons_of_ne hkind] at hwhole
      exact (ih hwhole).of_suffix ⟨gap ++ text, by simp⟩
  | @string _ gap text rest _ _ hgap htext hrest ih =>
      have hkind : Kind.string ≠ .comment .whole := nofun
      rw [wholeTexts_cons_of_ne hkind] at hwhole
      exact (ih hwhole).of_suffix ⟨gap ++ '"' :: (text ++ ['"']), by simp⟩
  | @broken _ gap text rest _ _ hgap htext hstop hquote hrest ih =>
      have hkind : Kind.builtin ≠ .comment .whole := nofun
      rw [wholeTexts_cons_of_ne hkind] at hwhole
      exact (ih hwhole).of_suffix ⟨gap ++ '"' :: text, by simp⟩
  | @whole _ gap text rest _ _ hgap htext hrest ih =>
      rw [wholeTexts_cons_of_eq rfl] at hwhole
      obtain ⟨rfl, hbehind⟩ := List.cons.inj hwhole
      exact .whole ⟨gap, rfl⟩ hrest hbehind
  | opening => cases hwhole
  | @line column gap text rest hgap hline hrest =>
      rcases splitLineComment_cases (column + gap.length) text with
        hsame | ⟨before, -, body, -, -, -, -, hpair⟩
      · rw [hsame] at hwhole
        cases hwhole
      · rw [hpair] at hwhole
        obtain ⟨rfl, rfl⟩ := List.cons.inj hwhole
        exact .split rfl rfl (by simp)

-- Where the first of some deferred comments is not read from its beginning, it is not found again. A
-- whole comment that begins inside of it is shorter, and one that begins behind it comes too late for
-- the next one.
theorem Scans.wholeTexts_ne {column depth : Nat} {text first : Text} {row : Row} {texts : List Text}
    (h : Scans column text row depth)
    (hinside : ∀ other ∈ first :: texts, Comment.Inside 1 other)
    (hsuffix : text <:+ first ++ '*' :: ')' :: texts.flatMap Text.deferred) :
    wholeTexts row ≠ first :: texts := by
  induction texts generalizing column depth text first row with
  | nil =>
      intro hwhole
      cases h.firstWhole hwhole with
      | whole hmark hscan hbehind =>
          have hnone := Comment.suffix_of_inside (hinside _ List.mem_cons_self) (hmark.trans hsuffix)
          cases List.eq_nil_of_suffix_nil hnone
      | split hfirst htexts hline =>
          rw [hfirst] at hsuffix
          have hmark := hsuffix.subset hline
          simp at hmark
  | cons next texts ih =>
      intro hwhole
      cases h.firstWhole hwhole with
      | @whole after start left behind hmark hscan hbehind =>
          have hnext : '(' :: '*' :: (first ++ '*' :: ')' :: after) <:+
              ' ' :: '(' :: '*' :: (next ++ '*' :: ')' :: texts.flatMap Text.deferred) := by
            simpa [Text.deferred] using
              Comment.suffix_of_inside (hinside _ List.mem_cons_self) (hmark.trans hsuffix)
          have hlater : first ++ '*' :: ')' :: after <:+
              next ++ '*' :: ')' :: texts.flatMap Text.deferred :=
            Comment.suffix_of_cons (Comment.suffix_of_cons (Comment.suffix_of_ne (by decide) hnext))
          refine ih hscan (fun other hother => hinside other (List.mem_cons_of_mem _ hother)) ?_ hbehind
          exact List.IsSuffix.trans ⟨first ++ ['*', ')'], by simp⟩ hlater
      | split hfirst htexts hline => cases htexts

theorem Scans.eq_nil {column depth : Nat} {row : Row} (h : Scans column [] row depth) : row = [] := by
  generalize htext : ([] : Text) = text at h
  cases h with
  | nil => rfl
  | plain hgap hplain hrest => simp [hplain.ne_nil] at htext
  | _ => simp at htext

-- What may stand behind a string that breaks off.
inductive Trailing : Row → Prop
  | nil : Trailing []
  | backslash {token : Token} (hcode : token.isComment = false)
      (hemission : token.emission .toUnicode = ['\\']) : Trailing [token]

theorem emission_backslash {kind : Kind} (hkind : kind.isPlain = true) (column : Nat) :
    (Token.ofText kind ['\\'] column).emission .toUnicode = ['\\'] := by
  have hnone : Symbol.convert? .toUnicode ['\\'] = none := by decide +kernel
  cases kind with
  | builtin => simp [Token.emission, Token.ofText, hnone]
  | number | ident | dashes | endMarker | proofStep => rfl
  | label | prolog | epilog | string | comment => cases hkind

theorem Scans.trailing_of_backslash {column depth : Nat} {row : Row}
    (h : Scans column ['\\'] row depth) : Trailing row := by
  generalize htext : ['\\'] = text at h
  cases h with
  | nil hgap =>
      subst htext
      cases hgap
  | @plain _ kind gap text rest _ _ hgap hplain hrest =>
      obtain ⟨rfl, hpiece⟩ : gap = [] ∧ ['\\'] = text ++ rest := by
        cases gap with
        | nil => exact ⟨rfl, htext⟩
        | cons c gap =>
            obtain ⟨rfl, -⟩ := List.cons.inj htext
            cases hgap
      obtain ⟨rfl, rfl⟩ : ['\\'] = text ∧ rest = [] := by
        cases text with
        | nil => exact absurd rfl hplain.ne_nil
        | cons c text =>
            obtain ⟨rfl, hnil⟩ := List.cons.inj hpiece
            obtain ⟨rfl, rfl⟩ := List.append_eq_nil_iff.mp hnil.symm
            exact ⟨rfl, rfl⟩
      rw [hrest.eq_nil]
      refine .backslash ?_ (emission_backslash hplain.isPlain _)
      exact congrArg Option.isSome (Kind.of_isPlain hplain.isPlain).2.2
  | string | broken | whole | opening | line =>
      have hmarks := congrArg (fun text => ['"', '*'].any text.contains) htext
      simp at hmarks

-- A row with a string that breaks off. There is one only, and nothing but a backslash is behind it.
inductive BreaksOff : Row → Prop
  | intro {front last : Row} {token : Token} {inside : Text}
      (hstable : ∀ token ∈ front, token.Stable) (hkind : token.kind = .builtin)
      (htext : token.text = '"' :: inside) (hinside : Lexeme.Within inside) (hlast : Trailing last) :
      BreaksOff (front ++ token :: last)

theorem BreaksOff.cons {token : Token} {row : Row} (h : BreaksOff row) (htoken : token.Stable) :
    BreaksOff (token :: row) := by
  cases h with
  | @intro front last broken inside hstable hkind htext hinside hlast =>
      have hall : ∀ other ∈ token :: front, other.Stable := by simpa [htoken] using hstable
      exact .intro hall hkind htext hinside hlast

theorem Scans.breaksOff {column depth : Nat} {text : Text} {row : Row}
    (h : Scans column text row depth) (hline : '\n' ∉ text) {token : Token} (htoken : token ∈ row)
    (hbroken : token.isBrokenString = true) : BreaksOff row := by
  induction h with
  | nil => cases htoken
  | @plain column kind gap text rest row depth hgap hplain hrest ih =>
      rcases List.mem_cons.mp htoken with rfl | htoken
      · rw [hplain.isBrokenString] at hbroken
        cases hbroken
      · exact (ih (fun hmem => hline (by simp [hmem])) htoken).cons (Token.stable_of_plain hplain)
  | string hgap htext hrest ih =>
      rcases List.mem_cons.mp htoken with rfl | htoken
      · cases hbroken
      · exact (ih (fun hmem => hline (by simp [hmem])) htoken).cons (.string rfl htext)
  | whole hgap htext hrest ih =>
      rcases List.mem_cons.mp htoken with rfl | htoken
      · cases hbroken
      · exact (ih (fun hmem => hline (by simp [hmem])) htoken).cons (.whole rfl htext)
  | @broken column gap text rest row depth hgap htext hstop hquote hrest ih =>
      have hlast : Trailing row := by
        rcases Lexeme.eq_of_stringRun_eq_zero hstop hquote (fun hmem => hline (by simp [hmem]))
          with rfl | rfl
        · rw [hrest.eq_nil]
          exact .nil
        · exact hrest.trailing_of_backslash
      have hnone : ∀ other ∈ ([] : Row), other.Stable := by simp
      exact .intro hnone rfl rfl htext hlast
  | opening =>
      obtain rfl := List.mem_singleton.mp htoken
      cases hbroken
  | @line column gap text rest hgap hnewline hrest =>
      rcases splitLineComment_cases (column + gap.length) text with
        hsame | ⟨before, -, body, -, -, -, -, hpair⟩
      · rw [hsame] at htoken
        obtain rfl := List.mem_singleton.mp htoken
        cases hbroken
      · rw [hpair] at htoken
        rcases List.mem_cons.mp htoken with rfl | htoken
        · cases hbroken
        · obtain rfl := List.mem_singleton.mp htoken
          cases hbroken

theorem Trailing.of_bare {row : Row} (h : Trailing row.bare) : Trailing row := by
  generalize hbare : row.bare = twin at h
  cases h with
  | nil =>
      rw [List.map_eq_nil_iff.mp hbare]
      exact .nil
  | backslash hcode hemission =>
      obtain ⟨token, rfl, rfl⟩ := List.map_eq_singleton_iff.mp hbare
      exact .backslash hcode hemission

theorem BreaksOff.of_bare {row : Row} (h : BreaksOff row.bare) : BreaksOff row := by
  generalize hbare : row.bare = twin at h
  cases h with
  | @intro front last token inside hstable hkind htext hinside hlast =>
      obtain ⟨first, behind, rfl, rfl, hbehind⟩ := List.map_eq_append_iff.mp hbare
      obtain ⟨origin, trailing, rfl, rfl, rfl⟩ := List.map_eq_cons_iff.mp hbehind
      have hfirst : ∀ token ∈ first, token.Stable := fun token htoken =>
        (hstable token.bare (List.mem_map_of_mem htoken)).of_bare
      exact .intro hfirst hkind htext hinside (Trailing.of_bare hlast)

theorem BreaksOff.endsLine {row : Row} (h : BreaksOff row) :
    ∀ token ∈ row, token.endsLine = false := by
  cases h with
  | @intro front last broken inside hstable hkind htext hinside hlast =>
      intro token htoken
      rcases List.mem_append.mp htoken with htoken | htoken
      · exact (hstable token htoken).endsLine
      · rcases List.mem_cons.mp htoken with rfl | htoken
        · simp [Token.endsLine, Token.commentKind?, hkind, Kind.commentKind?]
        · cases hlast with
          | nil => cases htoken
          | backslash hcode hemission =>
              obtain rfl := List.mem_singleton.mp htoken
              exact endsLine_code hcode

theorem Trailing.wholeTexts_eq {row : Row} (h : Trailing row) : wholeTexts row = [] := by
  cases h with
  | nil => rfl
  | @backslash token hcode hemission =>
      exact wholeTexts_cons_of_ne (kind_ne_whole_of_code hcode) []

-- The string goes on over the space and the mark of the first deferred comment.
theorem Trailing.within {row : Row} {width : Nat} {text : Text} (h : Trailing row)
    (hlaid : Laid .toUnicode width row text) : Lexeme.Within (text ++ [' ', '(', '*']) := by
  cases h with
  | nil =>
      cases hlaid
      exact rfl
  | @backslash token hcode hemission =>
      cases hlaid with
      | @cons _ count _ _ _ hcolumn hrest =>
      cases hrest
      have hmark : Lexeme.Within ['\\', ' ', '(', '*'] := rfl
      rw [hemission, List.append_nil, List.append_assoc]
      exact (Lexeme.within_spaces count).append_within hmark

end Row

-- Comments that are deferred behind a string that breaks off are not read again.
theorem Laid.wholeTexts_ne {start : Nat} {row comments : Row} {text : Text}
    (h : Laid .toUnicode start row text) (hbroken : row.BreaksOff)
    (hclear : row.IsChain fun previous next => ¬ previous.Glues next) (hne : comments ≠ [])
    (hinside : ∀ comment ∈ comments, Comment.Inside 1 comment.text) :
    Row.wholeTexts (Row.ofCode start (text ++ comments.flatMap (Text.deferred ·.text))).1 ≠
      Row.wholeTexts row ++ comments.map Token.text := by
  cases hbroken with
  | @intro front last token inside hstable hkind htext hwithin hlast =>
  obtain ⟨first, back, rfl, hfirst, hback⟩ := h.exists_append
  cases hback with
  | @cons _ count _ _ tail hcolumn htail =>
  obtain ⟨later, zone, hpassed⟩ :=
    hfirst.exists_passed_self hstable (List.isChain_append.mp hclear).1
  obtain ⟨comment, others, rfl⟩ := List.exists_cons_of_ne_nil hne
  have hstring : Lexeme.Within (inside ++ (tail ++ [' ', '(', '*'])) :=
    hwithin.append_within (hlast.within htail)
  have hunmarked := Text.unmarked_append_spaces hpassed.unmarked count
  generalize hrest : comment.text ++ '*' :: ')' :: (others.map Token.text).flatMap Text.deferred = rest
  have hline : first ++ (Text.spaces count ++ token.emission .toUnicode ++ tail) ++
      (comment :: others).flatMap (Text.deferred ·.text) =
        first ++ (Text.spaces count ++ '"' :: (inside ++ (tail ++ [' ', '(', '*']) ++ rest)) := by
    simp [Token.emission_quote hkind htext, ← hrest, Text.deferred, List.flatMap_map]
  have hreads := (hpassed.reads
    (Text.spaces count ++ '"' :: (inside ++ (tail ++ [' ', '(', '*']) ++ rest))).1
  have hzone := (@Row.comments_ofCode_zone _
    ('"' :: (inside ++ (tail ++ [' ', '(', '*']) ++ rest)) hunmarked rfl later).1
  obtain ⟨found, behind, hbehind, hquote⟩ := Row.exists_comments_ofCode_quote
    (later + (zone ++ Text.spaces count).length) hstring rest
  rw [List.append_assoc] at hzone
  rw [hzone, hquote] at hreads
  have hother : token.kind ≠ .comment .whole := by
    rw [hkind]
    decide
  intro heq
  rw [hline, ← Row.wholeTexts_comments, hreads, Row.wholeTexts_append, Row.wholeTexts_comments,
    Row.wholeTexts_comments, Row.wholeTexts_landed, Row.wholeTexts_append,
    Row.wholeTexts_cons_of_ne hother, hlast.wholeTexts_eq, List.append_nil] at heq
  refine (Row.ofCode_scans found behind).wholeTexts_ne ?_ (hrest ▸ hbehind)
    (List.append_cancel_left heq)
  intro text hmem
  obtain ⟨origin, horigin, rfl⟩ := List.mem_map.mp
    (show text ∈ (comment :: others).map Token.text from hmem)
  exact hinside origin horigin

end TlaGlyph
