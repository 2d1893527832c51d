import TlaGlyph.Proofs.Lexeme.Reach

namespace TlaGlyph

namespace Text

-- What a mark of a comment may begin with.
def opensMark (c : Char) : Bool := c == '(' || c == '\\'

-- The text holds neither a quote nor a mark that begins a comment.
def Unmarked : Text → Prop
  | [] => True
  | c :: rest => c ≠ '"' ∧ (opensMark c = true → rest.head? ≠ some '*') ∧ Unmarked rest

instance decidableUnmarked : (text : Text) → Decidable text.Unmarked
  | [] => .isTrue trivial
  | c :: rest =>
    have := decidableUnmarked rest
    inferInstanceAs
      (Decidable (c ≠ '"' ∧ (opensMark c = true → rest.head? ≠ some '*') ∧ Unmarked rest))

-- Texts one behind the other may make a mark where they meet, and nowhere else.
theorem unmarked_append {first last : Text} :
    (first ++ last).Unmarked ↔ first.Unmarked ∧ last.Unmarked ∧
      (first.getLast?.any opensMark = true → last.head? ≠ some '*') := by
  induction first with
  | nil => simp [Unmarked]
  | cons c rest ih =>
    rw [List.cons_append, Unmarked, Unmarked, ih]
    cases rest with
    | nil =>
        simp only [List.nil_append, List.head?_nil, List.getLast?_nil, List.getLast?_singleton,
          Option.any_some, Option.any_none, Unmarked]
        simp only [ne_eq, reduceCtorEq, not_false_eq_true, implies_true, true_and, and_true,
          Bool.false_eq_true, false_implies]
        constructor
        · rintro ⟨hquote, hmark, hlast⟩
          exact ⟨hquote, hlast, hmark⟩
        · rintro ⟨hquote, hlast, hmark⟩
          exact ⟨hquote, hmark, hlast⟩
    | cons next rest =>
        rw [List.getLast?_cons_cons]
        simp only [List.cons_append, List.head?_cons]
        constructor
        · rintro ⟨hquote, hmark, hfirst, hlast, hjoin⟩
          exact ⟨⟨hquote, hmark, hfirst⟩, hlast, hjoin⟩
        · rintro ⟨⟨hquote, hmark, hfirst⟩, hlast, hjoin⟩
          exact ⟨hquote, hmark, hfirst, hlast, hjoin⟩

theorem unmarked_of_all {p : Char → Bool} (hp : ['"', '(', '\\'].all (!p ·) = true) {text : Text}
    (h : text.all p = true) : text.Unmarked := by
  have hnot : p '"' = false ∧ p '(' = false ∧ p '\\' = false := by simpa using hp
  induction text with
  | nil => trivial
  | cons c rest ih =>
    simp only [List.all_cons, Bool.and_eq_true] at h
    refine ⟨?_, fun hopens => ?_, ih h.2⟩
    · rintro rfl
      simp [hnot.1] at h
    · simp only [opensMark, Bool.or_eq_true, beq_iff_eq] at hopens
      rcases hopens with rfl | rfl
      · simp [hnot.2.1] at h
      · simp [hnot.2.2] at h

theorem Unmarked.quote_notMem {text : Text} (h : text.Unmarked) : '"' ∉ text := by
  induction text with
  | nil => exact List.not_mem_nil
  | cons c rest ih =>
      rw [List.mem_cons, not_or]
      exact ⟨Ne.symm h.1, ih h.2.2⟩

theorem unmarked_of_quiet {text : Text} (h : text.all Lexeme.isQuiet = true) : text.Unmarked :=
  unmarked_of_all (by decide) h

theorem unmarked_of_gap {text : Text} (h : text.all Lexeme.isGap = true) : text.Unmarked :=
  unmarked_of_all (by decide) h

theorem all_isGap_spaces (count : Nat) : (spaces count).all Lexeme.isGap = true := by
  apply List.all_eq_true.mpr
  intro c hc
  rw [List.eq_of_mem_replicate hc]
  decide

theorem unmarked_append_spaces {text : Text} (h : text.Unmarked) (count : Nat) :
    (text ++ spaces count).Unmarked := by
  refine unmarked_append.mpr ⟨h, unmarked_of_gap (all_isGap_spaces count), fun _ hhead => ?_⟩
  cases count with
  | zero => cases hhead
  | succ count => cases hhead

theorem take_all_of_le_run {p : Char → Bool} {text : Text} {count : Nat}
    (h : count ≤ run p text) : (text.take count).all p = true := by
  apply List.all_eq_true.mpr
  intro c hc
  have htake : text.take count = (text.takeWhile p).take count := by
    rw [← List.takeWhile_append_dropWhile (p := p) (l := text),
      List.take_append_of_le_length (by simpa [run] using h)]
    simp
  rw [htake] at hc
  exact List.all_eq_true.mp List.all_takeWhile c (List.mem_of_mem_take hc)

end Text

namespace Lexeme

open Text (run)

-- The first character decides whether a lexeme is a comment or a string.
theorem unmarked_of_longest {c : Char} {rest : Text} {shape : Shape} {count : Nat}
    (hbest : longest (c :: rest) shapes = (shape, count)) (hquote : c ≠ '"')
    (hline : shape ≠ .lineComment) (hopen : shape ≠ .openComment) :
    Text.Unmarked ((c :: rest).take count) := by
  have hreach := eq_reach_of_longest hbest
  have hpos := pos_of_longest hbest
  by_cases hsymbol : shape = .symbol
  · have hall : ∀ word ∈ fixedSymbols, word.Unmarked := by decide
    rw [hsymbol] at hreach
    obtain ⟨word, hmem, after, hafter, hlength⟩ :=
      @exists_of_reach_symbol (c :: rest) (hreach ▸ hpos)
    rw [hreach, hlength, hafter, List.take_left]
    exact hall word hmem
  · have hquiet : shape.reach (c :: rest) ≤ 1 + run isQuiet rest :=
      reach_le_quiet hline hsymbol hquote
    rw [← hreach] at hquiet
    cases count with
    | zero => trivial
    | succ count =>
    rw [List.take_succ_cons]
    have htail : (rest.take count).all isQuiet = true := Text.take_all_of_le_run (by omega)
    refine ⟨hquote, fun hopens hhead => ?_, Text.unmarked_of_quiet htail⟩
    rw [List.head?_take] at hhead
    split at hhead
    · cases hhead
    · cases rest with
      | nil => cases hhead
      | cons next rest =>
          obtain rfl := Option.some.inj hhead
          simp only [Text.opensMark, Bool.or_eq_true, beq_iff_eq] at hopens
          rcases hopens with rfl | rfl
          · rw [longest_openMark] at hbest
            exact hopen (Prod.mk.inj hbest).1.symm
          · rw [longest_lineMark] at hbest
            exact hline (Prod.mk.inj hbest).1.symm

end Lexeme

end TlaGlyph
