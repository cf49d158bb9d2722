import Marmoset.Proofs.Text.Rows
import Marmoset.Proofs.Token.Spans

/-!
Where tokens stand in a text. The place of a token leads to the row where it is written, and tokens stand
one behind another without overlap.
-/

namespace Marmoset

theorem takeWhile_unbroken {part : List Char} (plain : '\n' ∉ part) (rest : List Char) :
    (part ++ rest).takeWhile (· ≠ '\n') = part ++ rest.takeWhile (· ≠ '\n') := by
  apply List.takeWhile_append_of_pos
  intro c member
  exact decide_eq_true fun same => plain (same ▸ member)

theorem count_take_mono (text : List Char) {position behind : Nat} (order : position ≤ behind) :
    (text.take position).count '\n' ≤ (text.take behind).count '\n' :=
  (List.take_sublist_take_left order).count_le '\n'

namespace LineStart

variable {text : List Char} {position behind start : Nat}

theorem unique {other : Nat} (line : LineStart text position start)
    (again : LineStart text position other) : start = other := by
  have late {first second : Nat} (line : LineStart text position first)
      (again : LineStart text position second) : ¬ first < second := by
    intro before
    have broken : text[second - 1]? = some '\n' := again.fresh.resolve_left (by omega)
    exact line.unbroken (second - 1) (by omega) (by have := again.before; omega) broken
  exact Nat.le_antisymm (Nat.not_lt.mp (late again line)) (Nat.not_lt.mp (late line again))

theorem plain (line : LineStart text position start) :
    '\n' ∉ (text.drop start).take (position - start) := by
  intro member
  obtain ⟨index, found⟩ := List.mem_iff_getElem?.mp member
  rw [List.getElem?_take, List.getElem?_drop] at found
  split at found
  · next below => exact line.unbroken (start + index) (by omega) (by omega) found
  · cases found

theorem take_position (line : LineStart text position start) :
    text.take position = text.take start ++ (text.drop start).take (position - start) := by
  rw [← List.take_add, Nat.add_sub_cancel' line.before]

theorem drop_start (line : LineStart text position start) :
    text.drop start = (text.drop start).take (position - start) ++ text.drop position := by
  conv_lhs => rw [← List.take_append_drop (position - start) (text.drop start)]
  rw [List.drop_drop, Nat.add_sub_cancel' line.before]

/-- The row of a position: its number is that of the line feeds before, and it goes on from the line start
to the next line feed. -/
theorem row (line : LineStart text position start) :
    (Text.rows text)[(text.take position).count '\n']? =
      some ((text.drop start).takeWhile (· ≠ '\n')) := by
  have count : (text.take position).count '\n' = (text.take start).count '\n' := by
    rw [line.take_position, List.count_append, List.count_eq_zero.mpr line.plain, Nat.add_zero]
  rw [count, ← Text.head?_rows, List.head?_eq_getElem?]
  cases start with
  | zero => rfl
  | succ before =>
      have broken : text[before]? = some '\n' := line.fresh.resolve_left (Nat.succ_ne_zero before)
      obtain ⟨bound, here⟩ := List.getElem?_eq_some_iff.mp broken
      have halves : text = text.take before ++ '\n' :: text.drop (before + 1) := by
        rw [← here, ← List.drop_eq_getElem_cons bound, List.take_append_drop]
      have rows : Text.rows text =
          Text.rows (text.take before) ++ Text.rows (text.drop (before + 1)) := by
        conv_lhs => rw [halves]
        exact List.splitOn_append_cons_self _ _
      have number : (text.take (before + 1)).count '\n' = (Text.rows (text.take before)).length := by
        rw [Text.length_rows, List.take_add_one, broken, Option.toList_some, List.count_append,
          List.count_singleton_self]
      rw [rows, number, List.getElem?_append_right (Nat.le_refl _), Nat.sub_self]

theorem drop_row (line : LineStart text position start) (inside : position ≤ text.length) :
    ((text.drop start).takeWhile (· ≠ '\n')).drop (position - start) =
      (text.drop position).takeWhile (· ≠ '\n') := by
  have width : ((text.drop start).take (position - start)).length = position - start := by
    rw [List.length_take, List.length_drop]
    omega
  rw [line.drop_start, takeWhile_unbroken line.plain, List.drop_left' width]

theorem onward (line : LineStart text position start) (order : position ≤ behind)
    (counts : (text.take position).count '\n' = (text.take behind).count '\n') :
    LineStart text behind start := by
  refine ⟨Nat.le_trans line.before order, line.fresh, ?_⟩
  intro index above below broken
  rcases Nat.lt_or_ge index position with early | late
  · exact line.unbroken index above early broken
  · have more : (text.take (index + 1)).count '\n' = (text.take index).count '\n' + 1 := by
      rw [List.take_add_one, broken, Option.toList_some, List.count_append, List.count_singleton_self]
    have low := count_take_mono text late
    have high : (text.take (index + 1)).count '\n' ≤ _ := count_take_mono text below
    omega

end LineStart

namespace Place

def Before (place later : Place) : Prop :=
  place.line < later.line ∨ place.line = later.line ∧ place.column < later.column

namespace Marks

variable {text : List Char} {place later : Place} {position behind : Nat}

theorem row (marks : place.Marks text position) (inside : position ≤ text.length) :
    ∃ (line column : Nat) (row : List Char), place.line = line + 1 ∧ place.column = column ∧
      (Text.rows text)[line]? = some row ∧
      row.drop column = (text.drop position).takeWhile (· ≠ '\n') := by
  obtain ⟨start, line, column⟩ := marks.column
  refine ⟨_, position - start, _, ?_, ?_, line.row, line.drop_row inside⟩
  · rw [marks.line, Int.add_comm]
  · rw [column, Int.ofNat_sub line.before]

theorem line_le (marks : place.Marks text position) (again : later.Marks text behind)
    (order : position ≤ behind) : place.line ≤ later.line := by
  have fewer := count_take_mono text order
  rw [marks.line, again.line]
  omega

theorem column_of_line (marks : place.Marks text position) (again : later.Marks text behind)
    (order : position ≤ behind) (same : place.line = later.line) :
    later.column = place.column + (behind - position) := by
  obtain ⟨start, line, column⟩ := marks.column
  obtain ⟨start', line', column'⟩ := again.column
  have counts : (text.take position).count '\n' = (text.take behind).count '\n' := by
    rw [marks.line, again.line] at same
    omega
  rw [column, column', line'.unique (line.onward order counts)]
  omega

end Marks

end Place

namespace Token

/-- A token stands at a position of a text: its place is there, and so is its literal unless it is quoted. -/
structure Occurs (text : List Char) (token : Token) (position : Nat) : Prop where
  inside : position ≤ text.length
  marks : token.place.Marks text position
  written : token.kind ≠ .string → token.literal.toList <+: text.drop position

structure Precedes (token later : Token) : Prop where
  before : token.place.Before later.place
  apart : token.line = later.line → token.column + token.spelling.length ≤ later.column

namespace Occurs

variable {text : List Char} {token : Token} {position : Nat}

theorem line_bounds (occurs : token.Occurs text position) :
    1 ≤ token.line ∧ token.line ≤ 1 + text.count '\n' := by
  have line : token.line = 1 + (text.take position).count '\n' := occurs.marks.line
  have fewer := (List.take_sublist position text).count_le '\n'
  omega

theorem spelled (occurs : token.Occurs text position) (unquoted : token.kind ≠ .string)
    (plain : '\n' ∉ token.literal.toList) :
    ∃ (line column : Nat) (row : List Char), token.line = line + 1 ∧ token.column = column ∧
      (Text.rows text)[line]? = some row ∧
      (row.drop column).take token.literal.length = token.literal.toList := by
  obtain ⟨line, column, row, atLine, atColumn, found, rest⟩ := occurs.marks.row occurs.inside
  obtain ⟨tail, split⟩ := occurs.written unquoted
  refine ⟨line, column, row, atLine, atColumn, found, ?_⟩
  rw [rest, ← split, takeWhile_unbroken plain, ← String.length_toList, List.take_left]

end Occurs

section Tiles

variable {text : List Char} {token last : Token} {span : Span} {position : Nat} {tokens : List Token}
  {spans : List Span}

theorem Fills.occurs (fills : token.Fills text span) : token.Occurs text span.start := by
  refine ⟨Nat.le_trans (Nat.le_of_lt fills.filled) fills.inside, fills.marks, fun plain => ?_⟩
  have written := fills.written
  rw [spelling, if_neg plain] at written
  rw [← written]
  exact List.take_prefix _ _

theorem Fills.length_spelling (fills : token.Fills text span) :
    token.spelling.length = span.stop - span.start := by
  have inside := fills.inside
  rw [← fills.written, Span.cut, List.length_take, List.length_drop]
  omega

theorem Fills.precedes (fills : token.Fills text span) {later : Token}
    (marks : later.place.Marks text position) (behind : span.stop ≤ position) :
    token.Precedes later := by
  have filled := fills.filled
  have order : span.start ≤ position := by omega
  have apart (same : token.line = later.line) :
      token.column + token.spelling.length ≤ later.column := by
    have column : later.column = token.column + (position - span.start) :=
      fills.marks.column_of_line marks order same
    rw [fills.length_spelling]
    omega
  refine ⟨?_, apart⟩
  rcases Int.lt_or_eq_of_le (fills.marks.line_le marks order) with earlier | same
  · exact .inl earlier
  · have filled : 0 < token.spelling.length := by
      rw [fills.length_spelling]
      omega
    have column : token.column + token.spelling.length ≤ later.column := apart same
    exact .inr ⟨same, show token.column < later.column by omega⟩

/-- The tokens that cover a text stand there one behind another, and the end behind them. -/
theorem Tiles.occurs (tiles : Tiles text position tokens spans)
    (ends : last.Occurs text text.length) :
    (tokens ++ [last]).Pairwise Precedes ∧
      ∀ token ∈ tokens ++ [last], ∃ there, position ≤ there ∧ token.Occurs text there := by
  induction tiles with
  | done =>
      refine ⟨List.pairwise_singleton _ _, List.forall_mem_singleton.mpr ?_⟩
      exact ⟨_, Nat.le_refl _, ends⟩
  | blank here blank rest ih =>
      refine ⟨ih.1, fun token member => ?_⟩
      obtain ⟨there, behind, occurs⟩ := ih.2 token member
      exact ⟨there, Nat.le_of_succ_le behind, occurs⟩
  | token fills rest ih =>
      refine ⟨.cons ?_ ih.1, List.forall_mem_cons.mpr ⟨⟨_, Nat.le_refl _, fills.occurs⟩, ?_⟩⟩
      · intro later member
        obtain ⟨there, behind, occurs⟩ := ih.2 later member
        exact fills.precedes occurs.marks behind
      · intro later member
        obtain ⟨there, behind, occurs⟩ := ih.2 later member
        exact ⟨there, Nat.le_trans (Nat.le_of_lt fills.filled) behind, occurs⟩

end Tiles

theorem scan_occurs (source : String) : (scan source).Pairwise Precedes ∧
    ∀ token ∈ scan source, ∃ position, token.Occurs source.toList position := by
  obtain ⟨tokens, last, spans, scanned, tiles, literal, marks⟩ :=
    scanFrom_tiles [] (Nat.zero_le source.toList.length)
  have ends : last.Occurs source.toList source.toList.length := by
    refine ⟨Nat.le_refl _, marks, fun _ => ?_⟩
    rw [literal]
    exact List.nil_prefix
  obtain ⟨ordered, occurs⟩ := Tiles.occurs tiles ends
  rw [scan, show Place.start = Place.start.after [] from rfl, scanned]
  refine ⟨ordered, fun token member => ?_⟩
  obtain ⟨position, -, there⟩ := occurs token member
  exact ⟨position, there⟩

end Token

end Marmoset
