import TlaGlyph.Proofs.Comment

namespace TlaGlyph.Comment

-- The text begins inside `depth` comments, and its last mark is the one that closes the last of them. A
-- mark takes both of its characters.
inductive Nested : Nat → Text → Prop
  | last : Nested 1 ['*', ')']
  | opens {depth : Nat} {rest : Text} (hrest : Nested (depth + 1) rest) :
      Nested depth ('(' :: '*' :: rest)
  | closes {depth : Nat} {rest : Text} (hdepth : 1 < depth) (hrest : Nested (depth - 1) rest) :
      Nested depth ('*' :: ')' :: rest)
  | other {depth : Nat} {c : Char} {rest : Text} (hopen : ¬['(', '*'] <+: c :: rest)
      (hclose : ¬['*', ')'] <+: c :: rest) (hrest : Nested depth rest) :
      Nested depth (c :: rest)

-- One comment with all that is nested in it, and nothing behind it.
def Complete (text : Text) : Prop := ∃ rest, text = '(' :: '*' :: rest ∧ Nested 1 rest

variable {depth left : Nat} {c : Char} {text body rest : Text}

theorem not_prefix_cons {first second : Char}
    (h : ∀ rest, c = first → text = second :: rest → False) : ¬[first, second] <+: c :: text := by
  rintro ⟨rest, hrest⟩
  obtain ⟨hc, htext⟩ := List.cons.inj hrest
  exact h rest hc.symm htext.symm

-- Another text that begins the same way makes no mark either.
theorem not_prefix_of_head {first second : Char} {other : Text}
    (h : ¬[first, second] <+: c :: text)
    (hhead : other.head? = some second → text.head? = some second) :
    ¬[first, second] <+: c :: other := by
  rintro ⟨rest, hrest⟩
  obtain ⟨rfl, rfl⟩ := List.cons.inj hrest
  obtain ⟨tail, rfl⟩ := List.head?_eq_some_iff.mp (hhead rfl)
  exact h ⟨tail, rfl⟩

theorem head?_of_line (hc : c ≠ '\n') (h : (text ++ '\n' :: rest).head? = some c) :
    text.head? = some c := by
  cases text with
  | nil => exact absurd (Option.some.inj h).symm hc
  | cons first text => exact h

theorem nested_of_read (hdepth : 0 < depth) (h : read depth text = .closed body rest) :
    Nested depth (body ++ ['*', ')']) := by
  fun_induction read depth text generalizing body with
  | case1 depth tail ih =>
      obtain ⟨inner, hinner, rfl⟩ := eq_of_prepend_eq_closed h
      exact .opens (ih (Nat.succ_pos _) hinner)
  | case2 depth tail hle =>
      obtain ⟨rfl, rfl⟩ := Extent.closed.inj h
      obtain rfl : depth = 1 := by omega
      exact .last
  | case3 depth tail hle ih =>
      obtain ⟨inner, hinner, rfl⟩ := eq_of_prepend_eq_closed h
      exact .closes (by omega) (ih (by omega) hinner)
  | case4 depth c tail hopen hclose ih =>
      obtain ⟨inner, hinner, rfl⟩ := eq_of_prepend_eq_closed h
      -- no mark is made by cutting off what follows the comment
      have htail := eq_of_read_eq_closed hinner
      have hhead : (inner ++ ['*', ')']).head? = tail.head? := by
        rw [htail]
        cases inner <;> rfl
      refine .other ?_ ?_ (ih hdepth hinner)
      · exact not_prefix_of_head (not_prefix_cons hopen) hhead.symm.trans
      · exact not_prefix_of_head (not_prefix_cons hclose) hhead.symm.trans
  | case5 => cases h

theorem Nested.exists_read (h : Nested depth text) :
    0 < depth → ∃ body, read depth text = .closed body [] := by
  induction h with
  | last => exact fun _ => ⟨[], rfl⟩
  | @opens depth rest hrest ih =>
      intro hdepth
      obtain ⟨body, hread⟩ := ih (Nat.succ_pos depth)
      exact ⟨_, by rw [read, hread, Extent.prepend]⟩
  | @closes depth rest hopen hrest ih =>
      intro hdepth
      obtain ⟨body, hread⟩ := ih (by omega)
      exact ⟨_, by rw [read, if_neg (by omega), hread, Extent.prepend]⟩
  | @other depth c rest hopen hclose hrest ih =>
      intro hdepth
      obtain ⟨body, hread⟩ := ih hdepth
      have hfirst : ∀ tail, c = '(' → rest = '*' :: tail → False := by
        rintro tail rfl rfl
        exact hopen ⟨tail, rfl⟩
      have hsecond : ∀ tail, c = '*' → rest = ')' :: tail → False := by
        rintro tail rfl rfl
        exact hclose ⟨tail, rfl⟩
      exact ⟨_, by rw [read.eq_3 depth c rest hfirst hsecond, hread, Extent.prepend]⟩

-- The reader takes a complete comment from end to end, and nothing else.
theorem complete_iff : Complete ('(' :: '*' :: text) ↔ ∃ body, read 1 text = .closed body [] := by
  constructor
  · rintro ⟨rest, hrest, hnested⟩
    obtain rfl : text = rest := (List.cons.inj (List.cons.inj hrest).2).2
    exact hnested.exists_read Nat.one_pos
  · rintro ⟨body, hread⟩
    refine ⟨text, rfl, ?_⟩
    rw [eq_of_read_eq_closed hread]
    exact nested_of_read Nat.one_pos hread

theorem Inside.nested (hdepth : 0 < depth) (h : Inside depth text) :
    Nested depth (text ++ ['*', ')']) :=
  nested_of_read hdepth (h [])

theorem Inside.complete (h : Inside 1 text) : Complete ('(' :: '*' :: (text ++ ['*', ')'])) :=
  complete_iff.mpr ⟨text, h []⟩

-- No mark reaches over the end of a line.
theorem nested_of_read_eq_unclosed (h : read depth text = .unclosed left)
    (hrest : Nested left rest) : Nested depth (text ++ '\n' :: rest) := by
  fun_induction read depth text with
  | case1 depth tail ih => exact .opens (ih (eq_of_prepend_eq_unclosed h))
  | case2 depth tail hle => cases h
  | case3 depth tail hle ih =>
      exact .closes (by omega) (ih (eq_of_prepend_eq_unclosed h))
  | case4 depth c tail hopen hclose ih =>
      refine .other ?_ ?_ (ih (eq_of_prepend_eq_unclosed h))
      · exact not_prefix_of_head (not_prefix_cons hopen) (head?_of_line (by decide))
      · exact not_prefix_of_head (not_prefix_cons hclose) (head?_of_line (by decide))
  | case5 depth =>
      obtain rfl := Extent.unclosed.inj h
      exact .other (by simp) (by simp) hrest

end TlaGlyph.Comment
