import TlaGlyph.Grid.Row
import TlaGlyph.Proofs.Comment
import TlaGlyph.Proofs.Lexeme.Marks

namespace TlaGlyph

namespace Lexeme

-- Inside of a string the text goes on to its end, whatever follows it.
def Within (text : Text) : Prop := stringRun text = text.length

theorem Within.append {text : Text} (h : Within text) (rest : Text) :
    stringRun (text ++ rest) = text.length + stringRun rest := by
  unfold Within at h
  fun_induction stringRun text with
  | case1 => cases h
  | case2 c text hc ih =>
      rw [List.cons_append, List.cons_append, stringRun, if_neg hc,
        ih (by simp only [List.length_cons] at h; omega)]
      simp only [List.length_cons]
      omega
  | case3 => cases h
  | case4 c text hescape hc ih =>
      have hslash : ∀ (d : Char) (tail : Text), c = '\\' → text ++ rest = d :: tail → False :=
        fun _ _ hslash _ => hc (.inr (.inl hslash))
      rw [List.cons_append, stringRun.eq_2 c _ hslash, if_neg hc,
        ih (by simp only [List.length_cons] at h; omega)]
      simp only [List.length_cons]
      omega
  | case5 => exact (Nat.zero_add _).symm

theorem Within.append_of_stop {text rest : Text} (h : Within text) (hstop : stringRun rest = 0) :
    stringRun (text ++ rest) = text.length := by
  rw [h.append, hstop, Nat.add_zero]

-- Where a string ends is up to the text alone.
theorem Within.append_inj {text other rest behind : Text} (h : Within text) (hother : Within other)
    (hstop : stringRun rest = 0) (hbehind : stringRun behind = 0)
    (hsame : text ++ rest = other ++ behind) : text = other ∧ rest = behind := by
  apply List.append_inj hsame
  rw [← h.append_of_stop hstop, hsame, hother.append_of_stop hbehind]

theorem Within.quote_inj {text other rest behind : Text} (h : Within text) (hother : Within other)
    (hsame : text ++ '"' :: rest = other ++ '"' :: behind) : text = other ∧ rest = behind := by
  obtain ⟨htext, hrest⟩ := h.append_inj hother rfl rfl hsame
  exact ⟨htext, (List.cons.inj hrest).2⟩

-- A string that is closed does not break off.
theorem Within.quote_ne {text other rest stop : Text} (h : Within text) (hother : Within other)
    (hstop : stop = [] ∨ stop = ['\\']) : text ++ '"' :: rest ≠ other ++ stop := by
  intro hsame
  have hzero : stringRun stop = 0 := by rcases hstop with rfl | rfl <;> rfl
  obtain ⟨-, hrest⟩ := h.append_inj hother rfl hzero hsame
  rcases hstop with rfl | rfl <;> cases hrest

theorem Within.append_within {text other : Text} (h : Within text) (hother : Within other) :
    Within (text ++ other) := by
  rw [Within, h.append, hother, List.length_append]

theorem within_spaces (count : Nat) : Within (Text.spaces count) := by
  induction count with
  | zero => rfl
  | succ count ih =>
      have hspace : Within [' '] := rfl
      exact hspace.append_within ih

-- A run falls into what is inside of the string and what stops it.
theorem exists_within (text : Text) :
    ∃ inside rest, text = inside ++ rest ∧ Within inside ∧ stringRun rest = 0 := by
  fun_induction stringRun text with
  | case1 rest => exact ⟨[], _, rfl, rfl, rfl⟩
  | case2 c rest hc ih =>
      obtain ⟨inside, stop, rfl, hinside, hstop⟩ := ih
      refine ⟨'\\' :: c :: inside, stop, rfl, ?_, hstop⟩
      rw [Within, stringRun, if_neg hc, hinside]
      exact Nat.add_comm 2 _
  | case3 c rest hescape hc =>
      refine ⟨[], c :: rest, rfl, rfl, ?_⟩
      rw [stringRun.eq_2 c rest hescape, if_pos hc]
  | case4 c rest hescape hc ih =>
      obtain ⟨inside, stop, rfl, hinside, hstop⟩ := ih
      have hslash : ∀ (d : Char) (tail : Text), c = '\\' → inside = d :: tail → False :=
        fun _ _ hslash _ => hc (.inr (.inl hslash))
      refine ⟨c :: inside, stop, rfl, ?_, hstop⟩
      rw [Within, stringRun.eq_2 c inside hslash, if_neg hc, hinside]
      exact Nat.add_comm 1 _
  | case5 => exact ⟨[], [], rfl, rfl, rfl⟩

-- On a line a string that has no closing quote stops at the end, or in front of a backslash that has
-- nothing to take with it.
theorem eq_of_stringRun_eq_zero {rest : Text} (hstop : stringRun rest = 0)
    (hquote : rest.head? ≠ some '"') (hline : '\n' ∉ rest) : rest = [] ∨ rest = ['\\'] := by
  revert hstop
  fun_cases stringRun rest with
  | case1 rest => simp at hline
  | case2 c rest hc => exact fun hstop => by omega
  | case3 c rest hescape hc =>
      rcases hc with rfl | rfl | rfl
      · simp at hquote
      · cases rest with
        | nil => exact fun _ => .inr rfl
        | cons d rest => exact absurd rfl (hescape d rest rfl)
      · simp at hline
  | case4 c rest hescape hc => exact fun hstop => by omega
  | case5 => exact fun _ => .inl rfl

end Lexeme

-- The kinds of the tokens that have no marks and are no prose.
def Kind.isPlain : Kind → Bool
  | .builtin | .number | .ident | .dashes | .endMarker | .proofStep => true
  | .label | .prolog | .epilog | .string | .comment _ => false

theorem Kind.of_isPlain {kind : Kind} (h : kind.isPlain = true) :
    kind.openMark = [] ∧ kind.closeMark = [] ∧ kind.commentKind? = none := by
  cases kind <;> first | exact ⟨rfl, rfl, rfl⟩ | cases h

theorem Kind.markWidth_of_isPlain {kind : Kind} (h : kind.isPlain = true) :
    Token.markWidth kind = 0 := by
  obtain ⟨hopen, hclose, -⟩ := of_isPlain h
  simp [Token.markWidth, hopen, hclose]

-- A string that breaks off. It takes what follows its quote, comments as well.
def Token.isBrokenString (token : Token) : Bool :=
  token.kind == .builtin && token.text.head? == some '"'

-- A token without marks. No comment and no string begins in it.
structure Token.Plain (kind : Kind) (text : Text) : Prop where
  isPlain : kind.isPlain = true
  ne_nil : text ≠ []
  unmarked : text.Unmarked

theorem Token.Plain.isBrokenString {kind : Kind} {text : Text} (h : Plain kind text) (column : Nat) :
    (ofText kind text column).isBrokenString = false := by
  have hquote : text.head? ≠ some '"' := by
    intro hhead
    cases text with
    | nil => cases hhead
    | cons c text => exact h.unmarked.1 (Option.some.inj hhead)
  simp [Token.isBrokenString, ofText, hquote]

namespace Row

open Lexeme (isGap)

-- The text, which begins at `column` of its line and outside of comments, holds the tokens of the row
-- with gaps between them, and `depth` comments are open where it ends.
inductive Scans : Nat → Text → Row → Nat → Prop
  | nil {column : Nat} {gap : Text} (hgap : gap.all isGap = true) : Scans column gap [] 0
  | plain {column : Nat} {kind : Kind} {gap text rest : Text} {row : Row} {depth : Nat}
      (hgap : gap.all isGap = true) (hplain : Token.Plain kind text)
      (hrest : Scans (column + gap.length + text.length) rest row depth) :
      Scans column (gap ++ (text ++ rest))
        (Token.ofText kind text (column + gap.length) :: row) depth
  | string {column : Nat} {gap text rest : Text} {row : Row} {depth : Nat}
      (hgap : gap.all isGap = true)
      (htext : Lexeme.Within text)
      (hrest : Scans (column + gap.length + (text.length + 2)) rest row depth) :
      Scans column (gap ++ ('"' :: (text ++ '"' :: rest)))
        (Token.ofText .string text (column + gap.length) :: row) depth
  | broken {column : Nat} {gap text rest : Text} {row : Row} {depth : Nat}
      (hgap : gap.all isGap = true) (htext : Lexeme.Within text)
      (hstop : Lexeme.stringRun rest = 0) (hquote : rest.head? ≠ some '"')
      (hrest : Scans (column + gap.length + (text.length + 1)) rest row depth) :
      Scans column (gap ++ ('"' :: (text ++ rest)))
        (Token.ofText .builtin ('"' :: text) (column + gap.length) :: row) depth
  | whole {column : Nat} {gap text rest : Text} {row : Row} {depth : Nat}
      (hgap : gap.all isGap = true)
      (htext : Comment.Inside 1 text)
      (hrest : Scans (column + gap.length + (text.length + 4)) rest row depth) :
      Scans column (gap ++ ('(' :: '*' :: (text ++ '*' :: ')' :: rest)))
        (Token.ofText (.comment .whole) text (column + gap.length) :: row) depth
  | opening {column : Nat} {gap text : Text} {depth : Nat} (hgap : gap.all isGap = true)
      (hread : Comment.read 1 text = .unclosed depth) :
      Scans column (gap ++ ('(' :: '*' :: text))
        [Token.ofText (.comment .opening) text (column + gap.length)] depth
  -- a line comment takes everything up to the end of the line
  | line {column : Nat} {gap text rest : Text} (hgap : gap.all isGap = true)
      (hline : '\n' ∉ text) (hrest : rest.head?.all (· == '\n') = true) :
      Scans column (gap ++ ('\\' :: '*' :: (text ++ rest)))
        (splitLineComment (column + gap.length) text) 0

-- More gap in front changes nothing but the columns.
theorem Scans.behind {column : Nat} {gap text : Text} {row : Row} {depth : Nat}
    (hgap : gap.all isGap = true) (h : Scans (column + gap.length) text row depth) :
    Scans column (gap ++ text) row depth := by
  have hjoin {more : Text} (hmore : more.all isGap = true) : (gap ++ more).all isGap = true := by
    rw [List.all_append, hgap, hmore]
    rfl
  generalize hstart : column + gap.length = start at h
  cases h with
  | nil hmore => exact .nil (hjoin hmore)
  | @plain _ kind more _ _ _ _ hmore hplain hrest =>
      rw [← hstart, Nat.add_assoc column, ← List.length_append] at hrest ⊢
      rw [← List.append_assoc]
      exact .plain (hjoin hmore) hplain hrest
  | @string _ more _ _ _ _ hmore htext hrest =>
      rw [← hstart, Nat.add_assoc column, ← List.length_append] at hrest ⊢
      rw [← List.append_assoc]
      exact .string (hjoin hmore) htext hrest
  | @broken _ more _ _ _ _ hmore htext hstop hquote hrest =>
      rw [← hstart, Nat.add_assoc column, ← List.length_append] at hrest ⊢
      rw [← List.append_assoc]
      exact .broken (hjoin hmore) htext hstop hquote hrest
  | @whole _ more _ _ _ _ hmore htext hrest =>
      rw [← hstart, Nat.add_assoc column, ← List.length_append] at hrest ⊢
      rw [← List.append_assoc]
      exact .whole (hjoin hmore) htext hrest
  | @opening _ more _ _ hmore hread =>
      rw [← hstart, Nat.add_assoc column, ← List.length_append, ← List.append_assoc]
      exact .opening (hjoin hmore) hread
  | @line _ more _ _ hmore hline hrest =>
      rw [← hstart, Nat.add_assoc column, ← List.length_append, ← List.append_assoc]
      exact .line (hjoin hmore) hline hrest

-- No comment is open behind a text that closes all it opens.
theorem Scans.depth_eq_zero {column depth : Nat} {text : Text} {row : Row}
    (h : Scans column text row depth) (hcloses : Comment.Closes text) : depth = 0 := by
  induction h with
  | nil | line => rfl
  | @plain _ _ gap text rest _ _ hgap hplain hrest ih =>
      exact ih (hcloses.suffix ⟨gap ++ text, by simp⟩)
  | @string _ gap text rest _ _ hgap htext hrest ih =>
      exact ih (hcloses.suffix ⟨gap ++ '"' :: (text ++ ['"']), by simp⟩)
  | @broken _ gap text rest _ _ hgap htext hstop hquote hrest ih =>
      exact ih (hcloses.suffix ⟨gap ++ '"' :: text, by simp⟩)
  | @whole _ gap text rest _ _ hgap htext hrest ih =>
      exact ih (hcloses.suffix ⟨gap ++ '(' :: '*' :: (text ++ ['*', ')']), by simp⟩)
  | @opening _ gap text _ hgap hread =>
      obtain ⟨body, after, hclosed⟩ := hcloses text ⟨gap, rfl⟩
      rw [hread] at hclosed
      cases hclosed

theorem plain_split (column : Nat) {text : Text} (htext : text.all Lexeme.isOperatorChar = true)
    {rest : Text} {row : Row} {depth : Nat} (hrest : Scans (column + text.length) rest row depth) :
    Scans column (text ++ rest) (splitOperators column text ++ row) depth := by
  fun_induction splitOperators column text with
  | case1 column => simpa using hrest
  | case2 column c tail more token ih =>
      have hquiet : (c :: tail.take more).all Lexeme.isQuiet = true := by
        apply List.all_eq_true.mpr
        intro d hd
        apply Lexeme.isQuiet_of (p := Lexeme.isOperatorChar) (by decide) d
        apply List.all_eq_true.mp htext d
        exact List.mem_cons.mpr ((List.mem_cons.mp hd).imp_right List.mem_of_mem_take)
      have hplain : Token.Plain .builtin (c :: tail.take more) :=
        ⟨rfl, List.cons_ne_nil _ _, Text.unmarked_of_quiet hquiet⟩
      have hfinish : token.finish = column + (c :: tail.take more).length := by
        simp [token, Token.finish, Token.ofText, Token.markWidth, Kind.openMark, Kind.closeMark]
      have hlength : (c :: tail.take more).length + (tail.drop more).length =
          (c :: tail).length := by
        simp only [List.length_cons, List.length_take, List.length_drop]
        omega
      have hdrop : (tail.drop more).all Lexeme.isOperatorChar = true := by
        simp only [List.all_cons, Bool.and_eq_true] at htext
        exact List.all_eq_true.mpr fun d hd =>
          List.all_eq_true.mp htext.2 d (List.mem_of_mem_drop hd)
      have hsplit := ih hdrop (by rw [hfinish, Nat.add_assoc, hlength]; exact hrest)
      have hcons := @Scans.plain column _ [] _ _ _ depth rfl hplain (hfinish ▸ hsplit)
      rwa [List.nil_append, ← List.append_assoc, List.cons_append, List.take_append_drop] at hcons

theorem isPlain_wordKind (word : Text) : (wordKind word).isPlain = true := by
  unfold wordKind
  split <;> rfl

section Tokens

variable {column count depth : Nat} {c : Char} {tail : Text} {lexeme : Lexeme} {row : Row}

-- A lexeme that begins with a quote. It is a string if the quote is closed.
theorem exists_of_quote (hbest : Lexeme.longest ('"' :: tail) Lexeme.shapes = (lexeme.shape, count))
    (htext : lexeme.text = ('"' :: tail).take count) :
    ∃ inside rest, Lexeme.Within inside ∧ ('"' :: tail).drop count = rest ∧
      ((tail = inside ++ '"' :: rest ∧ lexeme.finish = lexeme.start + (inside.length + 2) ∧
          lexeme.tokens = [Token.ofText .string inside lexeme.start]) ∨
        (tail = inside ++ rest ∧ Lexeme.stringRun rest = 0 ∧ rest.head? ≠ some '"' ∧
          lexeme.finish = lexeme.start + (inside.length + 1) ∧
          lexeme.tokens = [Token.ofText .builtin ('"' :: inside) lexeme.start])) := by
  obtain ⟨inside, stop, rfl, hinside, hstop⟩ := Lexeme.exists_within tail
  have hrun := hinside.append_of_stop hstop
  by_cases hquote : stop.head? = some '"'
  · rw [Lexeme.longest_quote_closed (by rwa [hrun, List.drop_left]), hrun] at hbest
    obtain ⟨hshape, rfl⟩ := Prod.mk.inj hbest
    obtain ⟨after, rfl⟩ := List.head?_eq_some_iff.mp hquote
    have hwhole : '"' :: (inside ++ '"' :: after) = '"' :: (inside ++ ['"']) ++ after := by simp
    have hcount : inside.length + 2 = ('"' :: (inside ++ ['"'])).length := by simp
    have hmarks : lexeme.text = '"' :: (inside ++ ['"']) := by
      rw [htext, hwhole, hcount, List.take_left]
    refine ⟨inside, after, hinside, ?_, .inl ⟨rfl, ?_, ?_⟩⟩
    · rw [hwhole, hcount, List.drop_left]
    · rw [Lexeme.finish, hmarks, hcount]
    · simp only [Lexeme.tokens, ← hshape, hmarks, List.drop_succ_cons, List.drop_zero,
        List.dropLast_concat]
  · rw [Lexeme.longest_quote_broken (by rwa [hrun, List.drop_left]), hrun] at hbest
    obtain ⟨hshape, rfl⟩ := Prod.mk.inj hbest
    have hcount : 1 + inside.length = ('"' :: inside).length := Nat.add_comm 1 _
    have hmarks : lexeme.text = '"' :: inside := by
      rw [htext, hcount, ← List.cons_append, List.take_left]
    refine ⟨inside, stop, hinside, ?_, .inr ⟨rfl, hstop, hquote, ?_, ?_⟩⟩
    · rw [hcount, ← List.cons_append, List.drop_left]
    · rw [Lexeme.finish, hmarks]
      rfl
    · simp only [Lexeme.tokens, ← hshape, hmarks]

theorem scans_quote (hbest : Lexeme.longest ('"' :: tail) Lexeme.shapes = (lexeme.shape, count))
    (htext : lexeme.text = ('"' :: tail).take count)
    (hrest : Scans lexeme.finish (('"' :: tail).drop count) row depth) :
    Scans lexeme.start ('"' :: tail) (lexeme.tokens ++ row) depth := by
  obtain ⟨inside, rest, hinside, hdrop, ⟨rfl, hfinish, htokens⟩ |
    ⟨rfl, hstop, hquote, hfinish, htokens⟩⟩ := exists_of_quote hbest htext
  · rw [hfinish, hdrop] at hrest
    rw [htokens]
    exact @Scans.string lexeme.start [] _ _ _ _ rfl hinside hrest
  · rw [hfinish, hdrop] at hrest
    rw [htokens]
    exact @Scans.broken lexeme.start [] _ _ _ _ rfl hinside hstop hquote hrest

-- Any other lexeme that begins no comment is a run of operators or one token. It is a builtin if words
-- and numbers have nothing to do with it.
theorem tokens_cases (hquote : c ≠ '"')
    (hbest : Lexeme.longest (c :: tail) Lexeme.shapes = (lexeme.shape, count))
    (htext : lexeme.text = (c :: tail).take count) (hline : lexeme.shape ≠ .lineComment)
    (hopen : lexeme.shape ≠ .openComment) :
    (lexeme.text.all Lexeme.isOperatorChar = true ∧
        lexeme.tokens = splitOperators lexeme.start lexeme.text) ∨
      ∃ kind, Token.Plain kind lexeme.text ∧
        lexeme.tokens = [Token.ofText kind lexeme.text lexeme.start] ∧
        (lexeme.shape = .symbol ∨ lexeme.shape = .glyph ∨ lexeme.shape = .broken →
          kind = .builtin) := by
  have hpos := Lexeme.pos_of_longest hbest
  have hreach := Lexeme.eq_reach_of_longest hbest
  have hne : lexeme.text ≠ [] := by
    rw [htext]
    intro hnil
    rcases List.take_eq_nil_iff.mp hnil with hzero | hcons
    · omega
    · cases hcons
  have hunmarked : lexeme.text.Unmarked := by
    rw [htext]
    exact Lexeme.unmarked_of_longest hbest hquote hline hopen
  unfold Lexeme.tokens
  cases hshape : lexeme.shape with
  | lineComment => exact absurd hshape hline
  | openComment => exact absurd hshape hopen
  | string =>
      rw [hshape] at hbest
      exact absurd (Lexeme.eq_quote_of_string (congrArg Prod.fst hbest)) hquote
  | operator =>
      refine .inl ⟨?_, rfl⟩
      rw [htext, hreach, hshape]
      exact Text.take_all_of_le_run (Nat.le_refl _)
  | word => exact .inr ⟨_, ⟨isPlain_wordKind _, hne, hunmarked⟩, rfl, by simp⟩
  | number | dashes | endMarker | proofStep => exact .inr ⟨_, ⟨rfl, hne, hunmarked⟩, rfl, by simp⟩
  | backslashWord | symbol | delimiter | glyph | broken =>
      exact .inr ⟨_, ⟨rfl, hne, hunmarked⟩, rfl, fun _ => rfl⟩

theorem scans_unmarked (hquote : c ≠ '"')
    (hbest : Lexeme.longest (c :: tail) Lexeme.shapes = (lexeme.shape, count))
    (htext : lexeme.text = (c :: tail).take count) (hline : lexeme.shape ≠ .lineComment)
    (hopen : lexeme.shape ≠ .openComment)
    (hrest : Scans lexeme.finish ((c :: tail).drop count) row depth) :
    Scans lexeme.start (c :: tail) (lexeme.tokens ++ row) depth := by
  have hsplit : c :: tail = lexeme.text ++ (c :: tail).drop count := by
    rw [htext, List.take_append_drop]
  rw [hsplit]
  rcases tokens_cases hquote hbest htext hline hopen with
    ⟨hoperators, htokens⟩ | ⟨kind, hplain, htokens, -⟩
  · rw [htokens]
    exact plain_split lexeme.start hoperators hrest
  · rw [htokens]
    exact @Scans.plain lexeme.start kind [] _ _ _ _ rfl hplain hrest

theorem scans_tokens {gap : Text} (hgap : gap.all isGap = true)
    (hbest : Lexeme.longest (c :: tail) Lexeme.shapes = (lexeme.shape, count))
    (hstart : lexeme.start = column + gap.length) (htext : lexeme.text = (c :: tail).take count)
    (hline : lexeme.shape ≠ .lineComment) (hopen : lexeme.shape ≠ .openComment)
    (hrest : Scans lexeme.finish ((c :: tail).drop count) row depth) :
    Scans column (gap ++ c :: tail) (lexeme.tokens ++ row) depth := by
  refine .behind hgap ?_
  rw [← hstart]
  by_cases hquote : c = '"'
  · subst hquote
    exact scans_quote hbest htext hrest
  · exact scans_unmarked hquote hbest htext hline hopen hrest

end Tokens

-- How code is read.
theorem ofCode_scans (column : Nat) (text : Text) :
    Scans column text (ofCode column text).1 (ofCode column text).2 := by
  fun_induction ofCode column text with
  | case1 column text h => exact .nil (Lexeme.all_of_next?_none h)
  | case2 column text lexeme rest h hlt hshape =>
      obtain ⟨gap, c, tail, count, hgap, -, rfl, hbest, hstart, htext, -⟩ := Lexeme.exists_of_next? h
      rw [hshape] at hbest
      obtain ⟨tail, rfl, rfl⟩ := Lexeme.exists_of_lineComment (congrArg Prod.fst hbest)
      rw [Lexeme.longest_lineMark] at hbest
      have hcount : 2 + (tail.takeWhile (· != '\n')).length = count := congrArg Prod.snd hbest
      have hsplit : tail = tail.takeWhile (· != '\n') ++ tail.dropWhile (· != '\n') :=
        List.takeWhile_append_dropWhile.symm
      have hbody : lexeme.text.drop 2 = tail.takeWhile (· != '\n') := by
        rw [htext, ← hcount, Nat.add_comm 2, List.take_succ_cons, List.take_succ_cons,
          List.drop_succ_cons, List.drop_succ_cons, List.drop_zero]
        exact (List.prefix_iff_eq_take.mp (List.takeWhile_prefix _)).symm
      have hline : '\n' ∉ tail.takeWhile (· != '\n') := by
        intro hmem
        simpa using List.all_eq_true.mp List.all_takeWhile _ hmem
      have hafter : (tail.dropWhile (· != '\n')).head?.all (· == '\n') = true := by
        have hhead := List.head?_dropWhile_not (· != '\n') tail
        cases hdrop : (tail.dropWhile (· != '\n')).head? with
        | none => rfl
        | some mark => simpa [hdrop] using hhead
      have hscan := @Scans.line column gap _ _ hgap hline hafter
      rwa [← hsplit, ← hstart, ← hbody] at hscan
  | case3 column text lexeme rest h hlt hshape body after hread hlt' token tail ih =>
      obtain ⟨gap, hgap, rfl, hstart⟩ := Lexeme.exists_of_next?_openComment h hshape
      obtain rfl := Comment.eq_of_read_eq_closed hread
      have hfinish : token.finish = column + gap.length + (body.length + 4) := by
        rw [← hstart]
        rfl
      rw [hfinish] at ih
      have hscan := Scans.whole hgap (Comment.inside_of_read hread) ih
      rw [← hstart] at hscan
      exact hscan
  | case4 column text lexeme rest h hlt hshape depth hread =>
      obtain ⟨gap, hgap, rfl, hstart⟩ := Lexeme.exists_of_next?_openComment h hshape
      rw [hstart]
      exact .opening hgap hread
  | case5 column text lexeme rest h hlt tail hline hopen ih =>
      obtain ⟨gap, c, tail, count, hgap, -, rfl, hbest, hstart, htext, rfl⟩ :=
        Lexeme.exists_of_next? h
      exact scans_tokens hgap hbest hstart htext hline hopen ih

-- The same for a line that begins inside `depth` comments. As many as the last number are open where
-- it ends.
inductive ScansLine : Nat → Text → Row → Nat → Prop
  | code {line : Text} {row : Row} {left : Nat} (hrest : Scans 0 line row left) :
      ScansLine 0 line row left
  | closing {depth left : Nat} {text rest : Text} {row : Row} (hdepth : 0 < depth)
      (htext : Comment.Inside depth text)
      (hrest : Scans (text.length + 2) rest row left) :
      ScansLine depth (text ++ '*' :: ')' :: rest)
        (Token.ofText (.comment .closing) text 0 :: row) left
  | inside {depth left : Nat} {line : Text} (hdepth : 0 < depth) (hne : line ≠ [])
      (hread : Comment.read depth line = .unclosed left) :
      ScansLine depth line [Token.ofText (.comment .inside) line 0] left
  | blank {depth : Nat} (hdepth : 0 < depth) : ScansLine depth [] [] depth

theorem ofLine_scans (depth : Nat) (line : Text) :
    ScansLine depth line (ofLine depth line).1 (ofLine depth line).2 := by
  rcases Nat.eq_zero_or_pos depth with rfl | hdepth
  · exact .code (ofCode_scans 0 line)
  · rw [ofLine, if_neg (by omega)]
    split
    · next body rest hread =>
      obtain rfl := Comment.eq_of_read_eq_closed hread
      have hfinish : (Token.ofText (.comment .closing) body 0).finish = body.length + 2 :=
        Nat.zero_add _
      refine .closing hdepth (Comment.inside_of_read hread) ?_
      rw [← hfinish]
      exact ofCode_scans _ rest
    · next left hread =>
      cases line with
      | nil =>
          obtain rfl : depth = left := by simpa [Comment.read] using hread
          exact .blank hdepth
      | cons c line => exact .inside hdepth (List.cons_ne_nil _ _) hread

end Row

end TlaGlyph
