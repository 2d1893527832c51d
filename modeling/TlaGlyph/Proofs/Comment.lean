import TlaGlyph.Comment

namespace TlaGlyph.Comment

variable {depth : Nat} {text body rest : Text}

theorem eq_of_prepend_eq_unclosed {front : Text} {extent : Extent}
    (h : extent.prepend front = .unclosed depth) : extent = .unclosed depth := by
  cases extent with
  | closed body rest => cases h
  | unclosed left => exact h

-- Text that closes no comment for good leaves one open.
theorem pos_of_read_eq_unclosed {left : Nat} (hdepth : 0 < depth)
    (h : read depth text = .unclosed left) : 0 < left := by
  fun_induction read depth text with
  | case1 depth tail ih => exact ih (by omega) (eq_of_prepend_eq_unclosed h)
  | case2 depth tail hle => cases h
  | case3 depth tail hle ih => exact ih (by omega) (eq_of_prepend_eq_unclosed h)
  | case4 depth c tail hopen hclose ih => exact ih hdepth (eq_of_prepend_eq_unclosed h)
  | case5 depth =>
      obtain rfl := Extent.unclosed.inj h
      exact hdepth

-- The marks that are looked at are the same with any text behind the closing one.
theorem read_append (h : read depth text = .closed body rest) (other : Text) :
    read depth (body ++ '*' :: ')' :: other) = .closed body other := by
  fun_induction read depth text generalizing body with
  | case1 depth tail ih =>
      obtain ⟨inner, hinner, rfl⟩ := eq_of_prepend_eq_closed h
      simp only [List.cons_append, List.nil_append, read, ih hinner, Extent.prepend]
  | case2 depth tail hdepth =>
      obtain ⟨rfl, rfl⟩ := Extent.closed.inj h
      simp only [List.nil_append, read, if_pos hdepth]
  | case3 depth tail hdepth ih =>
      obtain ⟨inner, hinner, rfl⟩ := eq_of_prepend_eq_closed h
      simp only [List.cons_append, List.nil_append, read, if_neg hdepth, ih hinner,
        Extent.prepend]
  | case4 depth c tail hopen hclose ih =>
      obtain ⟨inner, hinner, rfl⟩ := eq_of_prepend_eq_closed h
      have htail := eq_of_read_eq_closed hinner
      have hhead (mark : Char) (after : Text)
          (hafter : inner ++ '*' :: ')' :: other = mark :: after) : ∃ after, tail = mark :: after := by
        rw [htail]
        cases inner with
        | nil =>
            obtain ⟨rfl, -⟩ := List.cons.inj hafter
            exact ⟨_, rfl⟩
        | cons first inner =>
            obtain ⟨rfl, -⟩ := List.cons.inj hafter
            exact ⟨_, rfl⟩
      have hopen' : ∀ after, c = '(' → inner ++ '*' :: ')' :: other = '*' :: after → False := by
        intro after hc hafter
        obtain ⟨after, rfl⟩ := hhead '*' after hafter
        exact hopen after hc rfl
      have hclose' : ∀ after, c = '*' → inner ++ '*' :: ')' :: other = ')' :: after → False := by
        intro after hc hafter
        obtain ⟨after, rfl⟩ := hhead ')' after hafter
        exact hclose after hc rfl
      rw [List.cons_append, List.nil_append, List.cons_append, read.eq_3 depth c _ hopen' hclose',
        ih hinner]
      rfl
  | case5 => cases h

-- With a closing mark behind it the text leads from inside `depth` comments out of all of them, and not
-- before.
def Inside (depth : Nat) (text : Text) : Prop :=
  ∀ rest, read depth (text ++ '*' :: ')' :: rest) = .closed text rest

theorem inside_of_read (h : read depth text = .closed body rest) : Inside depth body :=
  read_append h

-- A comment does not end in the spaces that it begins with.
theorem le_length_of_read {count : Nat}
    (h : read depth (Text.spaces count ++ text) = .closed body rest) : count ≤ body.length := by
  induction count generalizing body with
  | zero => exact Nat.zero_le _
  | succ count ih =>
      have hspace : read depth (Text.spaces (count + 1) ++ text) =
          (read depth (Text.spaces count ++ text)).prepend [' '] :=
        read.eq_3 depth ' ' _ nofun nofun
      rw [hspace] at h
      obtain ⟨inner, hinner, rfl⟩ := eq_of_prepend_eq_closed h
      exact Nat.succ_le_succ (ih hinner)

-- Fewer open comments are closed no later.
theorem exists_read_of_le {more : Nat} (hle : depth ≤ more)
    (h : read more text = .closed body rest) :
    ∃ body after, read depth text = .closed body after ∧ rest <:+ after := by
  fun_induction read more text generalizing depth body with
  | case1 more tail ih =>
      obtain ⟨inner, hinner, -⟩ := eq_of_prepend_eq_closed h
      obtain ⟨body, after, hread, hsuffix⟩ := ih (Nat.succ_le_succ hle) hinner
      exact ⟨_, _, by rw [read, hread, Extent.prepend], hsuffix⟩
  | case2 more tail hmore =>
      obtain ⟨-, rfl⟩ := Extent.closed.inj h
      exact ⟨[], tail, by rw [read, if_pos (by omega)], List.suffix_rfl⟩
  | case3 more tail hmore ih =>
      obtain ⟨inner, hinner, -⟩ := eq_of_prepend_eq_closed h
      by_cases hdepth : depth ≤ 1
      · refine ⟨[], tail, by rw [read, if_pos hdepth], ?_⟩
        rw [eq_of_read_eq_closed hinner]
        exact ⟨inner ++ ['*', ')'], by simp⟩
      · obtain ⟨body, after, hread, hsuffix⟩ := ih (show depth - 1 ≤ more - 1 by omega) hinner
        exact ⟨_, _, by rw [read, if_neg hdepth, hread, Extent.prepend], hsuffix⟩
  | case4 more c tail hopen hclose ih =>
      obtain ⟨inner, hinner, -⟩ := eq_of_prepend_eq_closed h
      obtain ⟨body, after, hread, hsuffix⟩ := ih hle hinner
      exact ⟨_, _, by rw [read.eq_3 depth c tail hopen hclose, hread, Extent.prepend], hsuffix⟩
  | case5 => cases h

-- Another character in front is no part of what ends the text.
theorem suffix_of_ne {mark c : Char} {inner : Text} (hne : mark ≠ c)
    (h : mark :: inner <:+ c :: text) : mark :: inner <:+ text :=
  (List.suffix_cons_iff.mp h).resolve_left fun heq => hne (List.cons.inj heq).1

theorem suffix_of_cons {mark c : Char} {inner : Text} (h : mark :: inner <:+ c :: text) :
    inner <:+ text := by
  rcases List.suffix_cons_iff.mp h with heq | h
  · obtain ⟨-, rfl⟩ := List.cons.inj heq
    exact List.suffix_rfl
  · exact (List.suffix_cons mark inner).trans h

-- What is opened in a comment is closed in it as well.
theorem exists_read_of_suffix {inner : Text} (h : read depth text = .closed body rest)
    (hinner : '(' :: '*' :: inner <:+ text) :
    '(' :: '*' :: inner <:+ rest ∨
      ∃ body after, read 1 inner = .closed body after ∧ rest <:+ after := by
  fun_induction read depth text generalizing body with
  | case1 depth tail ih =>
      obtain ⟨behind, hbehind, -⟩ := eq_of_prepend_eq_closed h
      rcases List.suffix_cons_iff.mp hinner with heq | hinner
      · obtain ⟨-, rfl⟩ := List.cons.inj (List.cons.inj heq).2
        exact .inr (exists_read_of_le (by omega) hbehind)
      · exact ih hbehind (suffix_of_ne (by decide) hinner)
  | case2 depth tail hdepth =>
      obtain ⟨-, rfl⟩ := Extent.closed.inj h
      exact .inl (suffix_of_ne (by decide) (suffix_of_ne (by decide) hinner))
  | case3 depth tail hdepth ih =>
      obtain ⟨behind, hbehind, -⟩ := eq_of_prepend_eq_closed h
      exact ih hbehind (suffix_of_ne (by decide) (suffix_of_ne (by decide) hinner))
  | case4 depth c tail hopen hclose ih =>
      obtain ⟨behind, hbehind, -⟩ := eq_of_prepend_eq_closed h
      rcases List.suffix_cons_iff.mp hinner with heq | hinner
      · obtain ⟨rfl, rfl⟩ := List.cons.inj heq
        exact absurd rfl (hopen inner rfl)
      · exact ih hbehind hinner
  | case5 => cases h

-- A comment does not begin once more before it has come to its end.
theorem suffix_of_inside {after : Text} (htext : Inside 1 text)
    (h : '(' :: '*' :: (text ++ '*' :: ')' :: after) <:+ text ++ '*' :: ')' :: rest) :
    '(' :: '*' :: (text ++ '*' :: ')' :: after) <:+ rest := by
  rcases exists_read_of_suffix (htext rest) h with hrest | ⟨body, last, hread, hlast⟩
  · exact hrest
  · rw [htext after] at hread
    obtain ⟨rfl, rfl⟩ := Extent.closed.inj hread
    have hlength := h.length_le
    have := hlast.length_le
    simp only [List.length_cons, List.length_append] at hlength
    omega

-- Every comment that is opened anywhere in the text, also inside of others, is closed in it.
def Closes (text : Text) : Prop :=
  ∀ rest, '(' :: '*' :: rest <:+ text → ∃ body after, read 1 rest = .closed body after

theorem closes_nil : Closes [] := by
  intro rest h
  simp at h

theorem Closes.suffix {other : Text} (h : Closes text) (hsuffix : other <:+ text) :
    Closes other :=
  fun rest hrest => h rest (hrest.trans hsuffix)

theorem closes_cons {c : Char} (hmark : c ≠ '(' ∨ text.head? ≠ some '*') (h : Closes text) :
    Closes (c :: text) := by
  intro rest hrest
  rcases List.suffix_cons_iff.mp hrest with heq | hrest
  · obtain ⟨rfl, rfl⟩ := List.cons.inj heq
    simp at hmark
  · exact h rest hrest

theorem closes_of_read (h : read depth text = .closed body rest) (hrest : Closes rest) :
    Closes text := by
  intro inner hinner
  rcases exists_read_of_suffix h hinner with hbehind | ⟨body, after, hread, -⟩
  · exact hrest inner hbehind
  · exact ⟨body, after, hread⟩

theorem closes_whole (htext : Inside 1 text) {other : Text} (hother : Closes other) :
    Closes ('(' :: '*' :: (text ++ '*' :: ')' :: other)) := by
  have hbehind : Closes ('*' :: (text ++ '*' :: ')' :: other)) :=
    closes_cons (.inl (by decide)) (closes_of_read (htext other) hother)
  intro rest hrest
  rcases List.suffix_cons_iff.mp hrest with heq | hrest
  · obtain ⟨-, rfl⟩ := List.cons.inj (List.cons.inj heq).2
    exact ⟨text, other, htext other⟩
  · exact hbehind rest hrest

theorem closes_spaces (count : Nat) {other : Text} (hother : Closes other) :
    Closes (Text.spaces count ++ other) := by
  induction count with
  | zero => exact hother
  | succ count ih => exact closes_cons (.inl (by decide)) ih

-- There is no mark in front of the first one.
theorem closes_of_splitAt? {before after other : Text}
    (h : Text.splitAt? ['(', '*'] text = some (before, after)) (hhead : other.head? ≠ some '*')
    (hother : Closes other) : Closes (before ++ other) := by
  induction text generalizing before with
  | nil => simp [Text.splitAt?] at h
  | cons c tail ih =>
      simp only [Text.splitAt?] at h
      split at h
      · obtain ⟨rfl, -⟩ := Prod.mk.inj (Option.some.inj h)
        exact hother
      · next hmark =>
        obtain ⟨⟨inner, last⟩, hinner, heq⟩ := Option.map_eq_some_iff.mp h
        obtain ⟨rfl, rfl⟩ := Prod.mk.inj heq
        refine closes_cons ?_ (ih hinner)
        by_cases hc : c = '('
        · subst hc
          refine .inr fun hinnerHead => ?_
          cases inner with
          | nil => exact hhead hinnerHead
          | cons first inner =>
              obtain rfl := Option.some.inj hinnerHead
              rw [Text.eq_of_splitAt? hinner] at hmark
              simp at hmark
        · exact .inl hc

end TlaGlyph.Comment
