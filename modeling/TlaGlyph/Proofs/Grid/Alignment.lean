import TlaGlyph.Proofs.Grid.Anchors

namespace TlaGlyph

namespace Row

-- From left to right is by column.
theorem Measured.lt_iff {stop : Nat} {row : Row} (h : row.Measured stop) {first last : Nat}
    {token other : Token} (htoken : row[first]? = some token) (hother : row[last]? = some other) :
    first < last ↔ token.column < other.column := by
  have hordered {first last : Nat} {token other : Token} (htoken : row[first]? = some token)
      (hother : row[last]? = some other) (hlt : first < last) : token.column < other.column := by
    obtain ⟨hfirst, rfl⟩ := List.getElem?_eq_some_iff.mp htoken
    obtain ⟨hlast, rfl⟩ := List.getElem?_eq_some_iff.mp hother
    exact List.pairwise_iff_getElem.mp h.pairwise_column first last hfirst hlast hlt
  constructor
  · exact hordered htoken hother
  · intro hlt
    rcases Nat.lt_trichotomy first last with hbefore | rfl | hbehind
    · exact hbefore
    · obtain rfl := Option.some.inj (htoken.symm.trans hother)
      exact absurd hlt (Nat.lt_irrefl _)
    · exact absurd (hordered hother htoken hbehind) (Nat.lt_asymm hlt)

-- The first token at the column is the only one.
theorem anchorItem?_eq_some_iff {stop : Nat} {row : Row} (h : row.Measured stop) {column item : Nat} :
    row.anchorItem? column = some item ↔
      row.isAlignable item = true ∧ ∃ token, row[item]? = some token ∧ token.column = column := by
  refine ⟨exists_of_anchorItem?, fun ⟨halign, token, htoken, hcolumn⟩ => ?_⟩
  refine Option.filter_eq_some_iff.mpr ⟨?_, halign⟩
  obtain ⟨hlt, rfl⟩ := List.getElem?_eq_some_iff.mp htoken
  refine List.findIdx?_eq_some_iff_getElem.mpr ⟨hlt, by simpa using hcolumn, fun before hbefore => ?_⟩
  have hne := (h.lt_iff (List.getElem?_eq_getElem (by omega)) htoken).mp hbefore
  simp only [decide_eq_true_eq]
  omega

theorem anchor_align_iff {above : Option (Nat × Row)} {row : Row} {item : Nat} {token : Token}
    (htoken : (row.align above)[item]? = some token)
    (hnone : row.isAlignable item = false → token.anchor = none) (anchor : Position) :
    token.anchor = some anchor ↔ row.isAlignable item = true ∧
      ∃ other, above = some (anchor.line, other) ∧
        other.anchorItem? token.column = some anchor.item := by
  cases halign : row.isAlignable item with
  | true =>
      rw [align, List.getElem?_mapIdx] at htoken
      obtain ⟨source, -, rfl⟩ := Option.map_eq_some_iff.mp htoken
      rw [if_pos halign]
      constructor
      · intro hanchor
        obtain ⟨⟨line, other⟩, rfl, hother⟩ := Option.bind_eq_some_iff.mp hanchor
        obtain ⟨found, hfound, rfl⟩ := Option.map_eq_some_iff.mp hother
        exact ⟨rfl, other, rfl, hfound⟩
      · rintro ⟨-, other, rfl, hfound⟩
        exact Option.map_eq_some_iff.mpr ⟨anchor.item, hfound, rfl⟩
  | false => simp [hnone halign]

-- A row that has nothing above it stays without anchors.
theorem align_none {row : Row} (h : row.bare = row) : row.align none = row := by
  apply List.ext_getElem?
  intro item
  rw [align, List.getElem?_mapIdx, ← h, getElem?_bare, Option.map_map]
  apply Option.map_congr
  intro token _
  simp only [Function.comp_apply]
  split <;> rfl

-- A token that cannot be lined up has no anchor.
theorem anchor_eq_none_of_align {above : Option (Nat × Row)} {row : Row} (h : row.bare = row)
    {item : Nat} {token : Token} (htoken : (row.align above)[item]? = some token)
    (halign : (row.align above).isAlignable item = false) : token.anchor = none := by
  rw [isAlignable_congr (bare_align above row)] at halign
  rw [align, List.getElem?_mapIdx, ← h, getElem?_bare, Option.map_map] at htoken
  obtain ⟨origin, -, rfl⟩ := Option.map_eq_some_iff.mp htoken
  rw [h, Function.comp_apply, if_neg (by simp [halign])]
  rfl

theorem anchorItem?_congr {row other : Row} (h : row.bare = other.bare) (column : Nat) :
    row.anchorItem? column = other.anchorItem? column := by
  have hfind (row : Row) :
      row.findIdx? (·.column = column) = row.bare.findIdx? (·.column = column) := by
    rw [bare, List.findIdx?_map]
    rfl
  rw [anchorItem?, anchorItem?, hfind row, h, ← hfind other, funext (isAlignable_congr h)]

-- Anchors that are there already make no difference, neither those of the row nor those above.
theorem align_align {above again : Option (Nat × Row)} (row : Row)
    (h : again.map (Prod.map id bare) = above.map (Prod.map id bare)) :
    (row.align above).align again = row.align above := by
  apply List.ext_getElem?
  intro item
  rw [align, List.getElem?_mapIdx, isAlignable_congr (bare_align above row), align,
    List.getElem?_mapIdx, Option.map_map]
  apply Option.map_congr
  intro token _
  by_cases halign : row.isAlignable item = true
  · simp only [Function.comp_apply, if_pos halign]
    cases above with
    | none => rw [Option.map_eq_none_iff.mp h]
    | some nearest =>
        obtain ⟨⟨line, other⟩, rfl, hsame⟩ := Option.map_eq_some_iff.mp h
        obtain ⟨hline, hbare⟩ := Prod.mk.inj hsame
        simp only [Option.bind_some, anchorItem?_congr hbare]
        rw [show line = nearest.1 from hline]
  · simp only [Function.comp_apply, if_neg halign]

end Row

namespace Grid

theorem alignFrom_alignFrom {above again : Option (Nat × Row)} (line : Nat) (rows : Grid)
    (h : again.map (Prod.map id Row.bare) = above.map (Prod.map id Row.bare)) :
    alignFrom line again (alignFrom line above rows) = alignFrom line above rows := by
  induction rows generalizing line above again with
  | nil => rfl
  | cons row rest ih =>
      have hempty : (row.align above).isEmpty = row.isEmpty := by
        rw [Bool.eq_iff_iff, List.isEmpty_iff, List.isEmpty_iff, Row.align, List.mapIdx_eq_nil_iff]
      simp only [alignFrom, Row.align_align row h, hempty]
      rw [ih]
      split
      · exact h
      · simp [Row.bare_align]

theorem align_align (grid : Grid) : grid.align.align = grid.align := by
  cases grid with
  | nil => rfl
  | cons row rest => exact congrArg (row :: ·) (alignFrom_alignFrom 1 rest rfl)

-- The nearest row above the line that is not empty, and its own line.
inductive Nearest (grid : Grid) (line : Nat) : Option (Nat × Row) → Prop
  | top (hblank : ∀ other < line, grid[other]? = some []) : Nearest grid line none
  | found {above : Nat} {row : Row} (hlt : above < line) (hrow : grid[above]? = some row)
      (hne : row ≠ []) (hblank : ∀ other, above < other → other < line → grid[other]? = some []) :
      Nearest grid line (some (above, row))

theorem Nearest.succ {grid : Grid} {line : Nat} {above : Option (Nat × Row)} {row : Row}
    (h : Nearest grid line above) (hrow : grid[line]? = some row) :
    Nearest grid (line + 1) (if row.isEmpty then above else some (line, row)) := by
  split
  · next hempty =>
    obtain rfl := List.isEmpty_iff.mp hempty
    cases h with
    | top hblank =>
        refine .top fun other hother => ?_
        rcases Nat.lt_succ_iff_lt_or_eq.mp hother with hlt | rfl
        · exact hblank other hlt
        · exact hrow
    | found hlt hnamed hne hblank =>
        refine .found (by omega) hnamed hne fun other habove hother => ?_
        rcases Nat.lt_succ_iff_lt_or_eq.mp hother with hlt | rfl
        · exact hblank other habove hlt
        · exact hrow
  · next hempty =>
    refine .found (Nat.lt_succ_self line) hrow (by simpa using hempty) fun other habove hother => ?_
    omega

theorem Nearest.eq {grid : Grid} {line : Nat} {above other : Option (Nat × Row)}
    (h : Nearest grid line above) (hother : Nearest grid line other) : above = other := by
  cases h with
  | top hblank =>
      cases hother with
      | top => rfl
      | found hlt hrow hne =>
          rw [hblank _ hlt] at hrow
          exact absurd (Option.some.inj hrow).symm hne
  | @found first _ hlt hrow hne hblank =>
      cases hother with
      | top hnone =>
          rw [hnone _ hlt] at hrow
          exact absurd (Option.some.inj hrow).symm hne
      | @found last _ hlt' hrow' hne' hblank' =>
          rcases Nat.lt_trichotomy first last with hbefore | rfl | hbehind
          · rw [hblank last hbefore hlt'] at hrow'
            exact absurd (Option.some.inj hrow').symm hne'
          · rw [hrow] at hrow'
            rw [Option.some.inj hrow']
          · rw [hblank' first hbehind hlt] at hrow
            exact absurd (Option.some.inj hrow).symm hne

-- Every row is lined up with the nearest one above it.
theorem exists_nearest_alignFrom {grid rows : Grid} {line : Nat} {above : Option (Nat × Row)}
    (hrows : grid.drop line = rows) (habove : Nearest grid line above) {index : Nat} {row : Row}
    (hrow : rows[index]? = some row) :
    ∃ nearest, Nearest grid (line + index) nearest ∧
      (alignFrom line above rows)[index]? = some (row.align nearest) := by
  induction rows generalizing line above index with
  | nil => cases hrow
  | cons first rest ih =>
      have hfirst : grid[line]? = some first := by
        rw [← Nat.add_zero line, ← List.getElem?_drop, hrows]
        rfl
      cases index with
      | zero =>
          obtain rfl := Option.some.inj hrow
          exact ⟨above, habove, rfl⟩
      | succ index =>
          have hrest : grid.drop (line + 1) = rest := by
            rw [← List.drop_drop, hrows]
            rfl
          have hline : line + (index + 1) = line + 1 + index := by omega
          rw [hline]
          exact ih hrest (habove.succ hfirst) hrow

theorem exists_nearest {grid : Grid} (hfirst : ∀ row, grid[0]? = some row → row.align none = row)
    {line : Nat} {row : Row} (hrow : grid[line]? = some row) :
    ∃ nearest, Nearest grid line nearest ∧ grid.align[line]? = some (row.align nearest) := by
  have htop : Nearest grid 0 none := .top nofun
  cases grid with
  | nil => cases hrow
  | cons first rest =>
      cases line with
      | zero =>
          obtain rfl := Option.some.inj hrow
          exact ⟨none, htop, congrArg some (hfirst first rfl).symm⟩
      | succ line =>
          have hline : line + 1 = 0 + 1 + line := by omega
          have hbehind : rest[line]? = some row := hrow
          obtain ⟨nearest, hnearest, haligned⟩ :=
            exists_nearest_alignFrom rfl (htop.succ rfl) hbehind
          exact ⟨nearest, hline ▸ hnearest, haligned⟩

-- The token at the position begins its row or follows a gap, and it is no prose and no piece of a
-- comment from above.
structure Alignable (grid : Grid) (position : Position) (token : Token) : Prop where
  get?_eq : grid.get? position = some token
  kind : token.kind ∉ [.prolog, .epilog, .comment .inside, .comment .closing]
  follows_gap : ∀ (item : Nat) (previous : Token), position.item = item + 1 →
    grid.get? ⟨position.line, item⟩ = some previous → previous.finish < token.column

theorem alignable_iff {grid : Grid} {position : Position} {row : Row} {token : Token}
    (hrow : grid[position.line]? = some row) (htoken : row[position.item]? = some token) :
    grid.Alignable position token ↔ row.isAlignable position.item = true := by
  have hget (item : Nat) : grid.get? ⟨position.line, item⟩ = row[item]? := by simp [get?, hrow]
  have hkind : token.kind ∉ [.prolog, .epilog, .comment .inside, .comment .closing] ↔
      token.kind.canAlign = true := by
    unfold Kind.canAlign
    split <;> simp_all
  have hgap : (row.previous? position.item).all (·.finish < token.column) = true ↔
      ∀ (item : Nat) (previous : Token), position.item = item + 1 → row[item]? = some previous →
        previous.finish < token.column := by
    unfold Row.previous?
    cases position.item with
    | zero => simp
    | succ item =>
        rw [if_neg (Nat.succ_ne_zero item), Nat.add_sub_cancel]
        constructor
        · intro hall before previous hitem hprevious
          obtain rfl : item = before := Nat.succ.inj hitem
          simpa [hprevious] using hall
        · intro hall
          cases hprevious : row[item]? with
          | none => rfl
          | some previous => simpa using hall item previous rfl hprevious
  simp only [Row.isAlignable, htoken, Option.any_some, Bool.and_eq_true, ← hkind, hgap]
  constructor
  · rintro ⟨-, hkind, hgap⟩
    exact ⟨hkind, by simpa only [hget] using hgap⟩
  · rintro ⟨hkind, hgap⟩
    exact ⟨(hget _).trans htoken, hkind, by simpa only [hget] using hgap⟩

-- The author has put the token at the position under the one at `anchor`. Only empty rows are between
-- them.
structure LinedUp (grid : Grid) (position : Position) (token : Token) (anchor : Position) : Prop where
  alignable : grid.Alignable position token
  line_lt : anchor.line < position.line
  blank : ∀ line, anchor.line < line → line < position.line → grid[line]? = some []
  exists_above : ∃ other, grid.Alignable anchor other ∧ other.column = token.column

namespace LinedUp

variable {grid : Grid} {position below anchor other : Position} {token next : Token}

-- Below the row of an anchor there is none that holds a token, up to the row that it is the anchor of.
theorem line_le (h : grid.LinedUp position token anchor) (hother : grid.LinedUp below next other)
    (hline : position.line = below.line) : other.line ≤ anchor.line := by
  by_contra hlt
  have hblank := h.blank other.line (by omega) (by have := hother.line_lt; omega)
  obtain ⟨named, hnamed, -⟩ := hother.exists_above
  have hget := hnamed.get?_eq
  simp [get?, hblank] at hget

theorem line_eq (h : grid.LinedUp position token anchor) (hother : grid.LinedUp below next other)
    (hline : position.line = below.line) : anchor.line = other.line :=
  Nat.le_antisymm (hother.line_le h hline.symm) (h.line_le hother hline)

-- Nothing is lined up past a row that holds a token.
theorem line_le_of_anchor (h : grid.LinedUp position token anchor)
    (hbelow : grid.LinedUp below next anchor) : below.line ≤ position.line := by
  by_contra hlt
  have hblank := hbelow.blank position.line h.line_lt (by omega)
  have hget := h.alignable.get?_eq
  simp [get?, hblank] at hget

end LinedUp

-- The anchors are the tokens that the author put others under, and nothing else is an anchor.
structure Aligned (grid : Grid) : Prop where
  anchor_iff : ∀ (position : Position) (token : Token), grid.get? position = some token →
    ∀ anchor, token.anchor = some anchor ↔ grid.LinedUp position token anchor
  unique : ∀ (position : Position) (token : Token) (anchor other : Position),
    grid.LinedUp position token anchor → grid.LinedUp position token other → anchor = other
  -- along a row the anchors follow one another in the row above
  increasing : ∀ (position next : Position) (token other : Token) (anchor behind : Position),
    position.line = next.line → position.item < next.item →
    grid.get? position = some token → grid.get? next = some other →
    token.anchor = some anchor → other.anchor = some behind →
    anchor.line = behind.line ∧ anchor.item < behind.item
  injective : ∀ (position next : Position) (token other : Token) (anchor : Position),
    grid.get? position = some token → grid.get? next = some other →
    token.anchor = some anchor → other.anchor = some anchor → position = next
  align_eq : grid.align = grid

section Parse

variable {source : Text} {line : Nat} {row : Row}

-- The row as the lexer gave it, and what it has been lined up with.
theorem exists_origin (hrow : (parse source)[line]? = some row) :
    ∃ (origin : Row) (nearest : Option (Nat × Row)), origin.bare = origin ∧
      Nearest (ofSource source) line nearest ∧ row = origin.align nearest := by
  have hlength := congrArg List.length (bare_align (ofSource source))
  rw [List.length_map, List.length_map, ← parse] at hlength
  have hline : line < (ofSource source).length := hlength ▸ (List.getElem?_eq_some_iff.mp hrow).1
  have hbare := bare_ofSource source
  obtain ⟨nearest, hnearest, haligned⟩ := exists_nearest
    (fun first hfirst => Row.align_none (hbare first (List.mem_of_getElem? hfirst)))
    (List.getElem?_eq_getElem hline)
  exact ⟨_, nearest, hbare _ (List.getElem_mem hline), hnearest,
    Option.some.inj (hrow.symm.trans haligned)⟩

theorem exists_nearest_parse (hrow : (parse source)[line]? = some row) :
    ∃ nearest, Nearest (parse source) line nearest ∧ row.align nearest = row := by
  have hfirst : ∀ first, (parse source)[0]? = some first → first.align none = first := by
    intro first hfirst
    obtain ⟨origin, nearest, hbare, hnearest, rfl⟩ := exists_origin hfirst
    cases hnearest with
    | top => rw [Row.align_none hbare, Row.align_none hbare]
    | found hlt => exact absurd hlt (Nat.not_lt_zero _)
  obtain ⟨nearest, hnearest, haligned⟩ := exists_nearest hfirst hrow
  rw [parse, align_align, ← parse, hrow] at haligned
  exact ⟨nearest, hnearest, (Option.some.inj haligned).symm⟩

theorem anchor_eq_none {item : Nat} {token : Token} (hrow : (parse source)[line]? = some row)
    (htoken : row[item]? = some token) (halign : row.isAlignable item = false) :
    token.anchor = none := by
  obtain ⟨origin, nearest, hbare, -, rfl⟩ := exists_origin hrow
  exact Row.anchor_eq_none_of_align hbare htoken halign

theorem exists_of_get? {grid : Grid} {position : Position} {token : Token}
    (h : grid.get? position = some token) :
    ∃ row, grid[position.line]? = some row ∧ row[position.item]? = some token :=
  Option.bind_eq_some_iff.mp h

theorem anchor_parse_iff {position : Position} {token : Token}
    (h : (parse source).get? position = some token) {anchor : Position} :
    token.anchor = some anchor ↔ (parse source).LinedUp position token anchor := by
  obtain ⟨row, hrow, htoken⟩ := exists_of_get? h
  obtain ⟨nearest, hnearest, haligned⟩ := exists_nearest_parse hrow
  have hanchor := Row.anchor_align_iff (by rw [haligned]; exact htoken)
    (anchor_eq_none hrow htoken) anchor
  rw [hanchor, ← alignable_iff hrow htoken]
  constructor
  · rintro ⟨halignable, named, rfl, hfound⟩
    cases hnearest with
    | found hlt hnamed hne hblank =>
        have hmeasured := measured_parse source named (List.mem_of_getElem? hnamed)
        obtain ⟨halign, other, hother, hcolumn⟩ := (Row.anchorItem?_eq_some_iff hmeasured).mp hfound
        exact ⟨halignable, hlt, hblank, other, (alignable_iff hnamed hother).mpr halign, hcolumn⟩
  · rintro ⟨halignable, hlt, hblank, other, habove, hcolumn⟩
    refine ⟨halignable, ?_⟩
    obtain ⟨named, hnamed, hother⟩ := exists_of_get? habove.get?_eq
    have hmeasured := measured_parse source named (List.mem_of_getElem? hnamed)
    have hfound : Nearest (parse source) position.line (some (anchor.line, named)) :=
      .found hlt hnamed (List.ne_nil_of_mem (List.mem_of_getElem? hother)) hblank
    refine ⟨named, hnearest.eq hfound, (Row.anchorItem?_eq_some_iff hmeasured).mpr ⟨?_, ?_⟩⟩
    · exact (alignable_iff hnamed hother).mp habove
    · exact ⟨other, hother, hcolumn⟩

-- The anchors of two tokens of a row stand in one row, in the same order.
theorem LinedUp.lt_iff {position next anchor behind : Position} {token other : Token}
    (h : (parse source).LinedUp position token anchor)
    (hnext : (parse source).LinedUp next other behind) (hline : position.line = next.line) :
    anchor.item < behind.item ↔ token.column < other.column := by
  obtain ⟨above, habove, hcolumn⟩ := h.exists_above
  obtain ⟨after, hafter, hcolumn'⟩ := hnext.exists_above
  obtain ⟨named, hnamed, hitem⟩ := exists_of_get? habove.get?_eq
  obtain ⟨named', hnamed', hitem'⟩ := exists_of_get? hafter.get?_eq
  rw [← h.line_eq hnext hline, hnamed] at hnamed'
  obtain rfl := Option.some.inj hnamed'
  rw [← hcolumn, ← hcolumn']
  exact (measured_parse source named (List.mem_of_getElem? hnamed)).lt_iff hitem hitem'

theorem column_lt_iff {position next : Position} {token other : Token}
    (h : (parse source).get? position = some token) (hnext : (parse source).get? next = some other)
    (hline : position.line = next.line) :
    position.item < next.item ↔ token.column < other.column := by
  obtain ⟨row, hrow, htoken⟩ := exists_of_get? h
  obtain ⟨row', hrow', hother⟩ := exists_of_get? hnext
  rw [← hline, hrow] at hrow'
  obtain rfl := Option.some.inj hrow'
  exact (measured_parse source row (List.mem_of_getElem? hrow)).lt_iff htoken hother

end Parse

-- A token has an anchor just where the author put it under another one, which is the anchor.
theorem aligned_parse (source : Text) : (parse source).Aligned where
  anchor_iff position token htoken anchor := anchor_parse_iff htoken
  unique position token anchor other h hother := by
    have hline := h.line_eq hother rfl
    have hbefore := h.lt_iff hother rfl
    have hbehind := hother.lt_iff h rfl
    have hitem : anchor.item = other.item := by omega
    cases anchor
    cases other
    simp_all
  increasing position next token other anchor behind hline hitem htoken hother hanchor hbehind := by
    have h := (anchor_parse_iff htoken).mp hanchor
    have hnext := (anchor_parse_iff hother).mp hbehind
    refine ⟨h.line_eq hnext hline, (h.lt_iff hnext hline).mpr ?_⟩
    exact (column_lt_iff htoken hother hline).mp hitem
  injective position next token other anchor htoken hother hanchor hsame := by
    have h := (anchor_parse_iff htoken).mp hanchor
    have hnext := (anchor_parse_iff hother).mp hsame
    have hline : position.line = next.line :=
      Nat.le_antisymm (hnext.line_le_of_anchor h) (h.line_le_of_anchor hnext)
    -- the anchors are one token, so that neither position is in front of the other
    have hbefore := (h.lt_iff hnext hline).trans (column_lt_iff htoken hother hline).symm
    have hbehind := (hnext.lt_iff h hline.symm).trans (column_lt_iff hother htoken hline.symm).symm
    have hitem : position.item = next.item := by omega
    cases position
    cases next
    simp_all
  align_eq := align_align (ofSource source)

end Grid

end TlaGlyph
