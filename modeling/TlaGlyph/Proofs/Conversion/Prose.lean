import TlaGlyph.Proofs.Conversion.Streaming
import TlaGlyph.Proofs.Grid.Framing

namespace TlaGlyph

-- The kinds of the tokens that take up a line of their own and have no marks.
def Kind.isVerbatim : Kind → Bool
  | .prolog | .epilog | .comment .inside => true
  | _ => false

theorem Kind.of_isVerbatim {kind : Kind} (h : kind.isVerbatim = true) :
    kind = .prolog ∨ kind = .epilog ∨ kind = .comment .inside := by
  cases kind with
  | prolog => exact .inl rfl
  | epilog => exact .inr (.inl rfl)
  | comment kind =>
      cases kind with
      | inside => exact .inr (.inr rfl)
      | whole | line | opening | closing => cases h
  | builtin | number | ident | label | dashes | endMarker | proofStep | string => cases h

theorem Kind.canAlign_of_isVerbatim {kind : Kind} (h : kind.isVerbatim = true) :
    kind.canAlign = false := by
  rcases of_isVerbatim h with rfl | rfl | rfl <;> rfl

theorem Token.emission_of_isVerbatim {kind : Kind} (h : kind.isVerbatim = true)
    (direction : Direction) (line : Text) : (ofText kind line 0).emission direction = line := by
  rcases Kind.of_isVerbatim h with rfl | rfl | rfl
  · exact List.append_nil line
  · exact List.append_nil line
  · exact List.append_nil line

-- Nothing stands in front of the token and it has no anchor, so that it stays where it is, whatever
-- is above it.
theorem Row.convert_prose {kind : Kind} (h : kind.isVerbatim = true) (direction : Direction)
    (above : Grid) (line : Text) :
    (Module.prose kind line).convert direction above =
      ((Module.prose kind line).map (Token.writtenAt 0), .ok line) := by
  rw [Module.prose]
  split
  · next hempty =>
    obtain rfl := List.isEmpty_iff.mp hempty
    rfl
  · have hplace : (Token.ofText kind line 0).place direction above ⟨above.length, 0⟩ none 0 true =
        .ok (.spaces 0) := rfl
    have hallows : direction.allows (Token.ofText kind line 0).column 0 = true := by
      cases direction <;> rfl
    have hdeferring : (Deferral.observe {} 0 (Token.ofText kind line 0)).deferring = false := by
      rcases Kind.of_isVerbatim h with rfl | rfl | rfl <;> rfl
    have hput : Draft.put direction ⟨above.length, 0⟩ (Token.ofText kind line 0) 0 {} =
        (⟨line, Deferral.observe {} 0 (Token.ofText kind line 0)⟩,
          .ok ((Token.ofText kind line 0).writtenAt 0)) := by
      simp [Draft.put, Token.emission_of_isVerbatim h, hallows, Token.writtenAt, Text.spaces]
    have hwrite : Draft.writeAll direction above 0 none {} [Token.ofText kind line 0] =
        ([(Token.ofText kind line 0).writtenAt 0],
          ⟨line, Deferral.observe {} 0 (Token.ofText kind line 0)⟩, .ok ()) := by
      simp [Draft.writeAll, Draft.postpones, Draft.write, hplace, hput]
    simp [convert, hwrite, hdeferring, Draft.finish, Except.map]

-- All of the line belongs to the comment.
theorem Row.ScansLine.eq_prose {depth left : Nat} {line : Text} {row : Row}
    (h : ScansLine depth line row left) (hdepth : 0 < depth)
    (hnone : ∀ token ∈ row, token.kind ≠ .comment .closing) :
    row = Module.prose (.comment .inside) line := by
  cases h with
  | code => exact absurd hdepth (Nat.lt_irrefl 0)
  | closing => exact absurd rfl (hnone _ (.head _))
  | inside _ hne _ => simp [Module.prose, hne]
  | blank => rfl

namespace Frame

-- Below a comment that is open a line holds no code, if no comment from above is closed down to it.
theorem row_of_linked {depth : Nat} {frames : List Frame} (h : Linked depth frames)
    (hdepth : 0 < depth) {index : Nat} {frame : Frame} (hframe : frames[index]? = some frame)
    (hopen : ∀ line ≤ index, ∀ other, frames[line]? = some other →
      ∀ token ∈ other.row, token.kind ≠ .comment .closing) :
    ∃ kind, kind.isVerbatim = true ∧ frame.row = Module.prose kind frame.line := by
  induction frames generalizing depth index with
  | nil => cases hframe
  | cons first rest ih =>
      have hfirst := hopen 0 (Nat.zero_le _) first rfl
      cases index with
      | zero =>
          obtain rfl := Option.some.inj hframe
          cases first with
          | prolog line => exact ⟨.prolog, rfl, rfl⟩
          | epilog line => exact ⟨.epilog, rfl, rfl⟩
          | code entered line =>
              obtain ⟨rfl, -⟩ := h
              refine ⟨.comment .inside, rfl, ?_⟩
              exact (Row.ofLine_scans entered line).eq_prose hdepth hfirst
      | succ index =>
          have hrest (line : Nat) (hline : line ≤ index) :=
            hopen (line + 1) (Nat.succ_le_succ hline)
          cases first with
          | prolog line | epilog line => exact ih h hdepth hframe hrest
          | code entered line =>
              obtain ⟨rfl, hlinked⟩ := h
              have hread := (Row.ofLine_scans entered line).read_of_forall hdepth hfirst
              exact ih hlinked (Comment.pos_of_read_eq_unclosed hdepth hread) hframe hrest

end Frame

namespace Grid

-- The line is above or below the module, or in the middle of a comment that was opened above and is
-- not closed on it.
inductive Codeless (lines : List Text) (grid : Grid) (index : Nat) : Prop
  | prolog {first : Nat} (hfirst : lines.findIdx? Module.isHeader = some first)
      (hindex : index < first)
  | epilog {first last : Nat} (hfirst : lines.findIdx? Module.isHeader = some first)
      (hends : EndsAt lines grid first last) (hindex : last < index)
  | comment {top : Nat} {row : Row} {token : Token} (htop : top < index)
      (hrow : grid[top]? = some row) (htoken : token ∈ row)
      (hopening : token.kind = .comment .opening)
      (hopen : ∀ line other, top < line → line ≤ index → grid[line]? = some other →
        ∀ token ∈ other, token.kind ≠ .comment .closing)

variable {source : Text} {index : Nat} {line : Text}

-- The comment of a line without code goes on behind the row that it was opened on.
theorem exists_linked_drop {top : Nat} {row : Row} {token : Token}
    (hrow : (parse source)[top]? = some row) (htoken : token ∈ row)
    (hopening : token.kind = .comment .opening) :
    ∃ left, 0 < left ∧ Frame.Linked left ((frames source).drop (top + 1)) := by
  obtain ⟨frame, hframe, hbare⟩ := exists_frame hrow
  obtain ⟨hlt, hget⟩ := List.getElem?_eq_some_iff.mp hframe
  have hline := newline_not_mem_of_mem_frames (List.mem_of_getElem? hframe)
  have hlinked := linked_frames source
  rw [← List.take_append_drop top (frames source), List.drop_eq_getElem_cons hlt, hget] at hlinked
  have hmem : token.bare ∈ frame.row := hbare ▸ List.mem_map_of_mem htoken
  obtain ⟨left, hleft, hbelow, -⟩ := Frame.exists_linked_of_opening hlinked hline hmem hopening
  exact ⟨left, hleft, hbelow⟩

theorem Codeless.exists_prose (h : Codeless (Text.lines source) (parse source) index)
    (hline : (Text.lines source)[index]? = some line) :
    ∃ kind, kind.isVerbatim = true ∧ (parse source)[index]? = some (Module.prose kind line) := by
  have hframed := framed_parse source
  cases h with
  | prolog hfirst hindex => exact ⟨.prolog, rfl, hframed.prolog _ hfirst _ _ hindex hline⟩
  | epilog hfirst hends hindex =>
      exact ⟨.epilog, rfl, hframed.epilog _ _ hfirst hends _ _ hindex hline⟩
  | @comment top row token htop hrow htoken hopening hopen =>
      obtain ⟨left, hleft, hlinked⟩ := exists_linked_drop hrow htoken hopening
      rw [← line_frames, List.getElem?_map] at hline
      obtain ⟨frame, hframe, rfl⟩ := Option.map_eq_some_iff.mp hline
      obtain ⟨below, rfl⟩ := Nat.exists_eq_add_of_lt htop
      have hdrop : ((frames source).drop (top + 1))[below]? = some frame := by
        rw [List.getElem?_drop, ← hframe]
        congr 1
        omega
      obtain ⟨kind, hkind, hprose⟩ := Frame.row_of_linked hlinked hleft hdrop (by
        intro line hle other hother token htoken hclosing
        rw [List.getElem?_drop] at hother
        obtain ⟨written, hwritten, hbare⟩ := exists_row hother
        rw [← hbare] at htoken
        obtain ⟨origin, horigin, rfl⟩ := List.mem_map.mp htoken
        exact hopen _ written (by omega) (by omega) hwritten origin horigin hclosing)
      exact ⟨kind, hkind, parse_of_prose hframe hprose (Kind.canAlign_of_isVerbatim hkind)⟩

end Grid

namespace Text

-- The rows outside of the module are prose and the others are not. No line without code is touched.
theorem convertLines_keeps_prose (source : Text) :
    Grid.Framed (lines source) (Grid.parse source) ∧
      ∀ direction out, convertLines direction source = .ok out →
        ∀ index line, (lines source)[index]? = some line →
          Grid.Codeless (lines source) (Grid.parse source) index → out[index]? = some line := by
  refine ⟨Grid.framed_parse source, ?_⟩
  intro direction out hconvert index line hline hcodeless
  obtain ⟨kind, hkind, hrow⟩ := hcodeless.exists_prose hline
  obtain ⟨done, isNext, hpasses⟩ := Grid.exists_passes hconvert
  obtain ⟨above, written, text, hwritten, htext⟩ := hpasses.exists_convert hrow
  rw [Row.convert_prose hkind] at hwritten
  obtain rfl := Except.ok.inj (Prod.mk.inj hwritten).2
  exact htext

-- A module that holds another one and a comment over three lines.
def nested : Text :=
  "\t\\in \n---- MODULE A\n---- MODULE B\n(* a\n\t\\in \n*) ====\n\\in ====\n\\in".toList

theorem convertLines_keeps_prose_of_nested :
    Grid.EndsAt (lines nested) (Grid.parse nested) 1 6 ∧
      ∃ out, convertLines .toUnicode nested = .ok out ∧ out[0]? = some "\t\\in ".toList ∧
        out[4]? = some "\t\\in ".toList ∧ out[7]? = some "\\in".toList := by
  have hlines : lines nested = ["\t\\in ".toList, "---- MODULE A".toList, "---- MODULE B".toList,
      "(* a".toList, "\t\\in ".toList, "*) ====".toList, "\\in ====".toList, "\\in".toList] := by
    decide +kernel
  have hfirst : (lines nested).findIdx? Module.isHeader = some 1 := by
    rw [hlines]
    decide +kernel
  obtain ⟨hbalanced, hunbalanced, htop, hrow⟩ :
      Module.headers 0 (((lines nested).take 7).drop 1) ≤
        Module.endings (((Grid.parse nested).take 7).drop 1) ∧
      (∀ count < 5, Module.endings (((Grid.parse nested).take (1 + count + 1)).drop 1) <
        Module.headers 0 (((lines nested).take (1 + count + 1)).drop 1)) ∧
      (Grid.parse nested)[3]? =
        some [{ Token.ofText (.comment .opening) " a".toList 0 with anchor := some ⟨2, 0⟩ }] ∧
      (Grid.parse nested)[4]? = some [Token.ofText (.comment .inside) "\t\\in ".toList 0] := by
    decide +kernel
  have hends : Grid.EndsAt (lines nested) (Grid.parse nested) 1 6 := by
    refine ⟨by decide, by rw [hlines]; decide, hbalanced, ?_⟩
    intro middle hle hlt
    obtain ⟨count, rfl⟩ := Nat.exists_eq_add_of_le hle
    exact Nat.not_le.mpr (hunbalanced count (by omega))
  have hcomment : Grid.Codeless (lines nested) (Grid.parse nested) 4 := by
    refine .comment (show 3 < 4 by decide) htop List.mem_cons_self rfl ?_
    intro line other hlt hle hother token htoken
    obtain rfl : line = 4 := by omega
    obtain rfl := Option.some.inj (hrow.symm.trans hother)
    obtain rfl := List.mem_singleton.mp htoken
    exact nofun
  obtain ⟨out, hout⟩ : ∃ out, convertLines .toUnicode nested = .ok out :=
    ⟨(lines nested).set 6 "∈ ====".toList, by decide +kernel⟩
  have hkeeps := (convertLines_keeps_prose nested).2 .toUnicode out hout
  rw [hlines] at hkeeps hends hfirst hcomment ⊢
  exact ⟨hends, out, hout, hkeeps 0 _ rfl (.prolog hfirst (by decide)), hkeeps 4 _ rfl hcomment,
    hkeeps 7 _ rfl (.epilog hfirst hends (by decide))⟩

end Text

end TlaGlyph
