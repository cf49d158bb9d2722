import Marmoset.Proofs.Grammar.Order
import Marmoset.Proofs.Outline

/-!
The notices of a document stand on the lines of its diagnostics. A notice covers its line to the end as
long as an editor and the scanner agree on the lines up to there; a character that breaks a line only for
the editor moves the lines behind it.
-/

namespace Marmoset

/-- How a notice shows a diagnostic: from the start of the line to the end of the row, unless a line is
broken in another way up to there. -/
structure Notice.Shows (text : String) (diagnostic : Diagnostic) (notice : Notice) : Prop where
  message : notice.message = diagnostic.problem.message
  startLine : notice.range.startLine = diagnostic.line - 1
  startColumn : notice.range.startColumn = 0
  endLine : notice.range.endLine = diagnostic.line - 1
  endColumn : ∃ (number : Nat) (row : List Char), diagnostic.line = number + 1 ∧
    (Text.rows text.toList)[number]? = some row ∧
    ((∀ earlier ∈ (Text.rows text.toList).take (number + 1), Text.Unbroken earlier) →
      notice.range.endColumn = (Text.trimmed row).length)

namespace Outline

theorem lineLength_row {text : String} {number : Nat} {row : List Char}
    (found : (Text.rows text.toList)[number]? = some row)
    (unbroken : ∀ earlier ∈ (Text.rows text.toList).take (number + 1), Text.Unbroken earlier) :
    lineLength text number = (Text.trimmed row).length := by
  rw [lineLength, if_neg (Int.not_lt.mpr (Int.natCast_nonneg number)), Int.toNat_natCast]
  exact Text.length_line found unbroken

theorem diagnostic_row {limit : Nat} {text : String} {reading : Reading}
    (read : Grammar.read limit text = .ok reading) {diagnostic : Diagnostic}
    (member : diagnostic ∈ reading.diagnostics) :
    ∃ (number : Nat) (row : List Char), diagnostic.line = number + 1 ∧
      (Text.rows text.toList)[number]? = some row := by
  obtain ⟨token, scanned, same⟩ := (Grammar.read_orderly read).1 diagnostic member
  obtain ⟨position, occurs⟩ := (Token.scan_occurs text).2 token scanned
  obtain ⟨low, high⟩ := occurs.line_bounds
  have inside : (token.line - 1).toNat < (Text.rows text.toList).length := by
    rw [Text.length_rows]
    omega
  exact ⟨_, _, by omega, List.getElem?_eq_getElem inside⟩

theorem noticeOf_shows {limit : Nat} {text : String} {reading : Reading}
    (read : Grammar.read limit text = .ok reading) {diagnostic : Diagnostic}
    (member : diagnostic ∈ reading.diagnostics) : (noticeOf text diagnostic).Shows text diagnostic := by
  obtain ⟨number, row, line, found⟩ := diagnostic_row read member
  refine ⟨rfl, rfl, rfl, rfl, number, row, line, found, fun unbroken => ?_⟩
  have before : diagnostic.line - 1 = number := by omega
  show (lineLength text (diagnostic.line - 1) : Int) = _
  rw [before, lineLength_row found unbroken]

/-- The outline of a text has one notice for each diagnostic, in order, on its line. -/
theorem notices_show_diagnostics (uri text : String)
    (short : ∀ token ∈ Token.scan text, token.kind = .int → token.literal.length ≤ 4300) :
    ∃ reading outline, Grammar.read standardLimit text = .ok reading ∧
      Outline.read uri text = .ok outline ∧
      List.Forall₂ (fun diagnostic notice => notice.Shows text diagnostic) reading.diagnostics
        outline.notices := by
  obtain ⟨reading, tree, -⟩ := Grammar.read_formed standardLimit text short
  have read := read_of_reading tree uri
  refine ⟨reading, _, tree, read, ?_⟩
  rw [ofReading, List.forall₂_map_right_iff, List.forall₂_same]
  exact fun diagnostic member => noticeOf_shows tree member

/-- Rows that end in a carriage return are shown without it. -/
theorem returned_rows_covered :
    let text := "let s = 1;\r\nlet = 3;\r\n"
    (∀ token ∈ Token.scan text, token.kind = .int → token.literal.length ≤ 4300) ∧
      (∀ row ∈ Text.rows text.toList, Text.Unbroken row) ∧
      ∃ reading outline, Grammar.read standardLimit text = .ok reading ∧
        Outline.read "file:///a.mky" text = .ok outline ∧
        reading.diagnostics = [⟨.expected .ident .assign, 2⟩] ∧
        outline.notices.map Notice.range = [⟨1, 0, 1, 8⟩] ∧
        List.Forall₂ (fun diagnostic notice => notice.Shows text diagnostic) reading.diagnostics
          outline.notices := by
  intro text
  have short : ∀ token ∈ Token.scan text, token.kind = .int → token.literal.length ≤ 4300 := by decide
  have found : (Grammar.read standardLimit text).map Reading.diagnostics =
      .ok [⟨.expected .ident .assign, 2⟩] := by decide
  have shown : (Outline.read "file:///a.mky" text).map (·.notices.map Notice.range) =
      .ok [⟨1, 0, 1, 8⟩] := by decide +kernel
  have unbroken : ∀ row ∈ Text.rows text.toList, Text.Unbroken row := by decide
  obtain ⟨reading, outline, tree, read, shows⟩ := notices_show_diagnostics "file:///a.mky" text short
  rw [tree] at found
  rw [read] at shown
  exact ⟨short, unbroken, reading, outline, tree, read, Except.ok.inj found, Except.ok.inj shown, shows⟩

/-- A line separator in a quoted text breaks a line for the editor and not for the scanner: the range of the
notice on the second line has the length of what stands behind the separator, not that of the row. -/
theorem separator_moves_lines :
    let text := "let s = \"a\u2028b\";\nlet = 3;\n"
    (∀ token ∈ Token.scan text, token.kind = .int → token.literal.length ≤ 4300) ∧
      (Grammar.read standardLimit text).map Reading.diagnostics = .ok [⟨.expected .ident .assign, 2⟩] ∧
      (Outline.read "file:///a.mky" text).map (·.notices.map Notice.range) = .ok [⟨1, 0, 1, 3⟩] ∧
      (Text.rows text.toList)[1]? = some "let = 3;".toList ∧
      (Text.trimmed "let = 3;".toList).length = 8 := by
  refine ⟨?_, ?_, ?_, ?_, ?_⟩
  all_goals decide +kernel

end Outline

end Marmoset
