import TlaGlyph.Text.Basic

namespace TlaGlyph.Comment

-- What reading from inside a comment comes to: the text up to the mark that closes the outermost
-- comment and the text behind that mark, or the number of comments still open at the end.
inductive Extent where
  | closed (body rest : Text)
  | unclosed (depth : Nat)
deriving DecidableEq

namespace Extent

-- The extent with more text in front of the body.
def prepend (front : Text) : Extent → Extent
  | .closed body rest => .closed (front ++ body) rest
  | .unclosed depth => .unclosed depth

end Extent

-- Reads on from inside `depth` comments. The marks are taken from left to right, so that `(*)`
-- opens a comment and does not close one.
def read : Nat → Text → Extent
  | depth, '(' :: '*' :: rest => (read (depth + 1) rest).prepend ['(', '*']
  | depth, '*' :: ')' :: rest =>
    if depth ≤ 1 then .closed [] rest else (read (depth - 1) rest).prepend ['*', ')']
  | depth, c :: rest => (read depth rest).prepend [c]
  | depth, [] => .unclosed depth

theorem eq_of_prepend_eq_closed {front body rest : Text} {extent : Extent}
    (h : extent.prepend front = .closed body rest) :
    ∃ inner, extent = .closed inner rest ∧ body = front ++ inner := by
  cases extent with
  | closed inner rest' =>
    simp only [Extent.prepend, Extent.closed.injEq] at h
    exact ⟨inner, by rw [h.2], h.1.symm⟩
  | unclosed depth => cases h

-- The body, its closing mark and the rest make up the text.
theorem eq_of_read_eq_closed {depth : Nat} {text body rest : Text}
    (h : read depth text = .closed body rest) : text = body ++ '*' :: ')' :: rest := by
  fun_induction read depth text generalizing body with
  | case1 depth tail ih =>
    obtain ⟨inner, hinner, rfl⟩ := eq_of_prepend_eq_closed h
    rw [ih hinner]
    rfl
  | case2 depth tail hdepth =>
    obtain ⟨rfl, rfl⟩ := Extent.closed.inj h
    rfl
  | case3 depth tail hdepth ih =>
    obtain ⟨inner, hinner, rfl⟩ := eq_of_prepend_eq_closed h
    rw [ih hinner]
    rfl
  | case4 depth c tail hopen hclose ih =>
    obtain ⟨inner, hinner, rfl⟩ := eq_of_prepend_eq_closed h
    rw [ih hinner]
    rfl
  | case5 => cases h

theorem length_lt_of_read_eq_closed {depth : Nat} {text body rest : Text}
    (h : read depth text = .closed body rest) : rest.length < text.length := by
  rw [eq_of_read_eq_closed h]
  simp only [List.length_append, List.length_cons]
  omega

end TlaGlyph.Comment
