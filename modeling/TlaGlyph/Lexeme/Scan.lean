import TlaGlyph.Lexeme.Shape
import TlaGlyph.Text.Utf8

namespace TlaGlyph

open Text (run)

structure Lexeme where
  shape : Lexeme.Shape
  start : Nat
  text : Text
deriving DecidableEq

namespace Lexeme

def finish (lexeme : Lexeme) : Nat := lexeme.start + lexeme.text.length

-- The first lexeme of a text that begins at column `start`, and the text after it.
def next? (start : Nat) (text : Text) : Option (Lexeme × Text) :=
  match text.dropWhile isGap with
  | [] => none
  | c :: rest =>
    let best := longest (c :: rest) shapes
    some (⟨best.1, start + run isGap text, (c :: rest).take best.2⟩, (c :: rest).drop best.2)

-- Nothing but blanks is skipped.
theorem eq_of_next? {start : Nat} {text rest : Text} {lexeme : Lexeme}
    (h : next? start text = some (lexeme, rest)) :
    text = text.takeWhile isGap ++ lexeme.text ++ rest ∧
      lexeme.start = start + run isGap text ∧ lexeme.text ≠ [] := by
  unfold next? at h
  split at h
  · cases h
  · next c tail hdrop =>
    simp only [Option.some.injEq, Prod.mk.injEq] at h
    have hpos := longest_pos c tail
    obtain ⟨rfl, rfl⟩ := h
    refine ⟨?_, rfl, ?_⟩
    · rw [List.append_assoc, List.take_append_drop, ← hdrop, List.takeWhile_append_dropWhile]
    · intro hnil
      have hlen := congrArg List.length hnil
      simp only [List.length_take, List.length_cons, List.length_nil] at hlen
      omega

theorem length_lt_of_next? {start : Nat} {text rest : Text} {lexeme : Lexeme}
    (h : next? start text = some (lexeme, rest)) : rest.length < text.length := by
  obtain ⟨htext, -, hne⟩ := eq_of_next? h
  have hpos := List.length_pos_iff.mpr hne
  have hlen := congrArg List.length htext
  simp only [List.length_append] at hlen
  omega

def scan (start : Nat) (text : Text) : List Lexeme :=
  match h : next? start text with
  | none => []
  | some (lexeme, rest) =>
    have := length_lt_of_next? h
    lexeme :: scan lexeme.finish rest
termination_by text.length

-- The lexemes of a text are pieces of it, and stand where they say.
theorem exists_of_mem_scan {start : Nat} {text : Text} {lexeme : Lexeme}
    (h : lexeme ∈ scan start text) :
    ∃ before after, text = before ++ lexeme.text ++ after ∧ lexeme.start = start + before.length := by
  fun_induction scan start text with
  | case1 => cases h
  | case2 start text first rest hnext _ ih =>
    obtain ⟨htext, hstart, -⟩ := eq_of_next? hnext
    rcases List.mem_cons.mp h with rfl | hrest
    · exact ⟨_, rest, htext, hstart⟩
    · obtain ⟨before, after, hafter, hbefore⟩ := ih hrest
      refine ⟨text.takeWhile isGap ++ first.text ++ before, after, ?_, ?_⟩
      · rw [List.append_assoc, List.append_assoc, ← List.append_assoc before, ← hafter]
        exact htext
      · rw [hbefore, finish, hstart, run]
        simp only [List.length_append]
        omega

-- Where the lexeme lies in a text that is stored as UTF-8.
def byteSpan (text : Text) (lexeme : Lexeme) : Nat × Nat :=
  let first := Text.utf8Width (text.take lexeme.start)
  (first, first + Text.utf8Width lexeme.text)

theorem extract_byteSpan {text : Text} {lexeme : Lexeme} (h : lexeme ∈ scan 0 text) :
    (Text.encode text).extract (lexeme.byteSpan text).1 (lexeme.byteSpan text).2 =
      Text.encode lexeme.text := by
  obtain ⟨before, after, rfl, hstart⟩ := exists_of_mem_scan h
  rw [Nat.zero_add] at hstart
  have hbefore : (before ++ lexeme.text ++ after).take lexeme.start = before := by
    rw [hstart, List.append_assoc, List.take_left]
  simp only [byteSpan, hbefore, ← Text.size_encode, Text.encode_append, ByteArray.append_assoc]
  have hsplit := @ByteArray.extract_append_size_add (Text.encode before)
    (Text.encode lexeme.text ++ Text.encode after) 0 (Text.encode lexeme.text).size
  rw [Nat.add_zero] at hsplit
  rw [hsplit, ByteArray.extract_append_eq_left rfl]

end Lexeme

end TlaGlyph
