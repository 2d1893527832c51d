import TlaGlyph.Proofs.Conversion.Streaming

namespace TlaGlyph

namespace Draft

variable {direction : Direction} {above : Grid} {position : Position}

-- Where a token goes has nothing to do with where it was written before, and neither has where the one
-- in front of it was.
theorem write_unwritten (previous? : Option Token) (token : Token) (draft : Draft) :
    draft.write direction above position (previous?.map Token.unwritten) token.unwritten =
      draft.write direction above position previous? token := by
  cases previous? <;> rfl

theorem write_congr {previous? before? : Option Token} {token other : Token} (draft : Draft)
    (hprevious : before?.map Token.unwritten = previous?.map Token.unwritten)
    (htoken : other.unwritten = token.unwritten) :
    draft.write direction above position before? other =
      draft.write direction above position previous? token := by
  rw [← write_unwritten before?, hprevious, htoken, write_unwritten]

theorem postpones_congr {token other : Token} {rest behind : Row} (draft : Draft)
    (htoken : other.unwritten = token.unwritten)
    (hrest : behind.map Token.unwritten = rest.map Token.unwritten) :
    draft.postpones other behind = draft.postpones token rest := by
  have hends := congrArg Token.endsLine htoken
  change other.endsLine = token.endsLine at hends
  have hempty : behind.isEmpty = rest.isEmpty := by
    simpa using congrArg List.isEmpty hrest
  rw [postpones, postpones, hends, hempty]

-- The tokens in front are written, always the same way, and those behind them stay as they are. The
-- first ones that stay are the one that fails or the one that is postponed.
theorem exists_writeAll (item : Nat) (previous? : Option Token) (draft : Draft) (row : Row) :
    ∃ front final result, ∀ (other : Row) (before? : Option Token),
      other.map Token.unwritten = row.map Token.unwritten →
      before?.map Token.unwritten = previous?.map Token.unwritten →
      writeAll direction above item before? draft other =
        (front ++ other.drop front.length, final, result) := by
  induction row generalizing item previous? draft with
  | nil =>
      refine ⟨[], draft, .ok (), fun other before? hsame _ => ?_⟩
      obtain rfl := List.map_eq_nil_iff.mp hsame
      rfl
  | cons token rest ih =>
      by_cases hpostpones : draft.postpones token rest = true
      · refine ⟨[], draft, .ok (), fun other before? hsame _ => ?_⟩
        obtain ⟨twin, behind, rfl, htwin, hbehind⟩ := List.map_eq_cons_iff.mp hsame
        rw [writeAll, if_pos (by rw [postpones_congr draft htwin hbehind, hpostpones])]
        rfl
      · cases hwrite : draft.write direction above ⟨above.length, item⟩ previous? token with
        | mk next result =>
        cases result with
        | error e =>
            refine ⟨[], next, .error e, fun other before? hsame hbefore => ?_⟩
            obtain ⟨twin, behind, rfl, htwin, hbehind⟩ := List.map_eq_cons_iff.mp hsame
            rw [writeAll, if_neg (by rwa [postpones_congr draft htwin hbehind]),
              write_congr draft hbefore htwin, hwrite]
            rfl
        | ok written =>
            obtain ⟨front, final, result, htail⟩ := ih (item + 1) (some token) next
            refine ⟨written :: front, final, result, fun other before? hsame hbefore => ?_⟩
            obtain ⟨twin, behind, rfl, htwin, hbehind⟩ := List.map_eq_cons_iff.mp hsame
            rw [writeAll, if_neg (by rwa [postpones_congr draft htwin hbehind]),
              write_congr draft hbefore htwin, hwrite]
            simp only [htail behind (some twin) hbehind (congrArg some htwin)]
            rfl

theorem finish_unwritten (row : Row) (draft : Draft) :
    draft.finish direction (row.map Token.unwritten) = draft.finish direction row := by
  have hlast : ((row.map Token.unwritten).getLast?.filter Token.endsLine).elim []
      (' ' :: Token.emission direction ·) =
        (row.getLast?.filter Token.endsLine).elim [] (' ' :: Token.emission direction ·) := by
    rw [List.getLast?_map, Option.filter_map, Option.elim_map]
    rfl
  simp only [finish, hlast]

theorem finish_congr {row other : Row} (h : other.map Token.unwritten = row.map Token.unwritten)
    (draft : Draft) : draft.finish direction other = draft.finish direction row := by
  rw [← finish_unwritten other, h, finish_unwritten]

end Draft

-- What is behind the tokens that are written anew has no columns left to take away.
theorem Deferral.unplace_unplace (deferral : Deferral) (front rest : Row) :
    deferral.unplace (front ++ (deferral.unplace (front ++ rest)).drop front.length) =
      deferral.unplace (front ++ rest) := by
  unfold unplace
  simp only [List.mapIdx_append]
  rw [List.drop_left' List.length_mapIdx, List.mapIdx_mapIdx]
  congr 2
  funext item token
  simp only [Function.comp_apply]
  split <;> rfl

namespace Row

variable (direction : Direction) (above : Grid) (row : Row)

theorem unwritten_convert :
    (row.convert direction above).1.map Token.unwritten = row.map Token.unwritten := by
  cases hconvert : row.convert direction above with
  | mk left result =>
  cases result with
  | error e => exact (exists_of_convert_error hconvert).2.2
  | ok line => exact (converted_of_convert hconvert).unwritten_eq

-- A row that has been converted, or that could not be, is left as it is the next time.
theorem convert_convert :
    (row.convert direction above).1.convert direction above = row.convert direction above := by
  obtain ⟨front, final, result, hall⟩ := @Draft.exists_writeAll direction above 0 none {} row
  have hsame := row.unwritten_convert direction above
  have hfinish : final.finish direction (row.convert direction above).1 =
      final.finish direction row := Draft.finish_congr hsame final
  have hrow := hall row none rfl rfl
  have hleft : (row.convert direction above).1 =
      if final.deferral.deferring then final.deferral.unplace (front ++ row.drop front.length)
      else front ++ row.drop front.length := by
    simp only [convert, hrow]
  have hagain := hall _ none hsame rfl
  generalize (row.convert direction above).1 = left at *
  simp only [convert, hrow, hagain, hfinish, Prod.mk.injEq, and_true]
  rw [hleft]
  split
  · exact final.deferral.unplace_unplace front _
  · rw [List.drop_left]

-- The comments of a row stay what they are.
theorem checkComments_convert (line item : Nat) (isOpen : Bool) :
    (row.convert direction above).1.checkComments line item isOpen =
      row.checkComments line item isOpen := by
  rw [← checkComments_bare, bare_of_unwritten (row.unwritten_convert direction above),
    checkComments_bare]

end Row

namespace Grid

variable {σ : Type}

-- Each row finds the rows above it as they were left before.
theorem putRows_putRows (sink : Sink σ) (direction : Direction) (above : Grid) (isOpen : Bool)
    (state : σ) (rows : Grid) :
    putRows sink direction above isOpen state (putRows sink direction above isOpen state rows).grid =
      putRows sink direction above isOpen state rows := by
  induction rows generalizing above isOpen state with
  | nil => rfl
  | cons row rest ih =>
      have hcheck := row.checkComments_convert direction above above.length 0 isOpen
      have hconvert := row.convert_convert direction above
      have hadvanced := advanced_putRows sink direction above isOpen state row rest
      generalize putRows sink direction above isOpen state (row :: rest) = outcome at hadvanced ⊢
      cases hadvanced with
      | malformed hfails => simp only [putRows, hfails]
      | failed hpasses hfails =>
          rw [hfails] at hcheck hconvert
          simp only [putRows, hcheck, hpasses, hconvert]
      | refused hpasses hwritten hput =>
          rw [hwritten] at hcheck hconvert
          simp only [putRows, hcheck, hpasses, hconvert, hput]
      | passed hpasses hwritten hput htail =>
          subst htail
          rw [hwritten] at hcheck hconvert
          simp only [putRows, hcheck, hpasses, hconvert, hput, ih]

-- The sinks of both runs begin in the same state. The outcome is the grid as it is left, what has come
-- of the sink, and the error or its absence.
theorem putAll_putAll (sink : Sink σ) (direction : Direction) (state : σ) (grid : Grid) :
    putAll sink direction state (putAll sink direction state grid).grid =
      putAll sink direction state grid := by
  have hrows := putRows_putRows sink direction [] false state grid
  simp only [putAll, hrows]

end Grid

end TlaGlyph
