import Marmoset.Proofs.Grammar.Formation
import Marmoset.Proofs.Outline

/-!
The symbols of a document point at the names that it binds. There is one for each binding at the top of
what was read, in order; its range is where the name is written in the text, and no two ranges overlap.
-/

namespace Marmoset

namespace Range

def Precedes (range later : Range) : Prop :=
  range.endLine < later.startLine ∨
    range.endLine = later.startLine ∧ range.endColumn ≤ later.startColumn

def Spells (text : String) (range : Range) (word : String) : Prop :=
  ∃ (line start stop : Nat) (row : List Char), range = ⟨line, start, line, stop⟩ ∧
    (Text.rows text.toList)[line]? = some row ∧ (row.take stop).drop start = word.toList

end Range

namespace Symbol

/-- What a symbol tells of a name that is bound to a value. -/
structure Tells (uri : String) (name : Name) (value : Node) (symbol : Symbol) : Prop where
  called : symbol.name = name.text
  document : symbol.uri = uri
  line : symbol.line = name.line - 1
  column : symbol.column = name.column
  function : symbol.kind = .function ↔ ∃ parameters body line, value = .function parameters body line
  listed : ∀ parameters body line, value = .function parameters body line → symbol.detail =
    "let " ++ name.text ++ " = fn(" ++ ", ".intercalate (parameters.map Name.text) ++ ")"
  unlisted : symbol.kind = .variable → symbol.detail = "let " ++ name.text

/-- A symbol points at its name: its range goes from its line and column over the length of the name, and
the name is what the text has there. -/
def Points (text : String) (symbol : Symbol) : Prop :=
  symbol.range = ⟨symbol.line, symbol.column, symbol.line, symbol.column + symbol.name.length⟩ ∧
    symbol.range.Spells text symbol.name

end Symbol

namespace Outline

inductive Told (uri : String) : Node → Symbol → Prop
  | binding {name : Name} {value : Node} {symbol : Symbol} (line : Int)
      (tells : symbol.Tells uri name value) : Told uri (.binding name value line) symbol

theorem symbolOf?_binding (uri : String) (name : Name) (value : Node) (line : Int) :
    ∃ symbol, symbolOf? uri (.binding name value line) = some symbol ∧ symbol.Tells uri name value := by
  cases value with
  | function parameters body place =>
      refine ⟨_, rfl, rfl, rfl, rfl, rfl, ?_, ?_, fun kind => (nomatch kind)⟩
      · exact ⟨fun _ => ⟨parameters, body, place, rfl⟩, fun _ => rfl⟩
      · intro others inside elsewhere same
        cases same
        rfl
  | _ =>
      refine ⟨_, rfl, rfl, rfl, rfl, rfl, ?_, ?_, fun _ => rfl⟩
      · exact ⟨fun kind => (nomatch kind), fun ⟨_, _, _, same⟩ => nomatch same⟩
      · exact fun _ _ _ same => nomatch same

/-- Every binding has one symbol, and no other statement has any. -/
theorem symbols_told (uri : String) (nodes : List Node) :
    List.Forall₂ (Told uri) (nodes.filter (·.bound?.isSome)) (nodes.filterMap (symbolOf? uri)) := by
  induction nodes with
  | nil => exact .nil
  | cons node nodes ih =>
      cases node with
      | binding name value line =>
          obtain ⟨symbol, found, tells⟩ := symbolOf?_binding uri name value line
          rw [List.filterMap_cons_some found]
          exact .cons (.binding line tells) ih
      | _ => exact ih

end Outline

theorem isIdentifier_unbroken {text : String} (valid : isIdentifier text = true) :
    '\n' ∉ text.toList := by
  unfold isIdentifier at valid
  split at valid
  · cases valid
  · next c more shape =>
      simp only [Bool.and_eq_true, List.all_eq_true] at valid
      rw [shape, List.mem_cons]
      rintro (rfl | inside)
      · exact absurd valid.1.1 (by decide)
      · exact absurd (valid.1.2 '\n' inside) (by decide)

namespace Outline

variable {uri text : String} {outline : Outline}

theorem symbol_points (read : read uri text = .ok outline) {symbol : Symbol}
    (member : symbol ∈ outline.symbols) : symbol.Points text := by
  have named := (read_named read).subset (List.mem_map_of_mem member)
  obtain ⟨token, scanned, kind, same⟩ := Grammar.mem_names named
  obtain ⟨called, below, column⟩ := Name.mk.inj same
  obtain ⟨position, occurs⟩ := (Token.scan_occurs text).2 token scanned
  have plain : token.kind ≠ .string := by
    rw [kind]
    decide
  have unbroken := isIdentifier_unbroken ((scan_valid text token scanned).word kind)
  obtain ⟨line, place, row, atLine, atColumn, found, spelled⟩ := occurs.spelled plain unbroken
  rw [called] at spelled
  refine ⟨rfl, line, place, place + symbol.name.length, row, ?_, found, ?_⟩
  · have line : symbol.line = line := by omega
    have column : symbol.column = place := by omega
    rw [Symbol.range, line, column, Int.natCast_add]
  · rw [List.drop_take, Nat.add_sub_cancel_left]
    exact spelled

theorem ranges_apart (read : read uri text = .ok outline) :
    outline.symbols.Pairwise fun symbol later => symbol.range.Precedes later.range := by
  have names : (Grammar.names (Token.scan text)).Pairwise fun (name later : Name) =>
      name.line < later.line ∨
        name.line = later.line ∧ name.column + name.text.length ≤ later.column := by
    refine List.pairwise_map.mpr (List.pairwise_filter.mpr ((Token.scan_occurs text).1.imp ?_))
    intro token later precedes kind _
    have width : token.spelling.length = token.literal.length := by
      rw [Token.spelling, if_neg (by simp [of_decide_eq_true kind]), String.length_toList]
    rcases precedes.before with earlier | same
    · exact .inl earlier
    · have column := precedes.apart same.1
      rw [width] at column
      exact .inr ⟨same.1, column⟩
  have symbols := List.pairwise_map.mp (names.sublist (read_named read))
  exact symbols.imp fun before =>
    before.imp Int.lt_of_add_lt_add_right (And.imp_left (Int.add_left_inj 1).mp)

/-- The outline of a text has one symbol for each binding at the top of what is read, in order. The range of
each is the span of the name in the text, and no two ranges overlap. -/
theorem symbols_point_at_names (uri text : String)
    (short : ∀ token ∈ Token.scan text, token.kind = .int → token.literal.length ≤ 4300) :
    ∃ reading outline, Grammar.read standardLimit text = .ok reading ∧
      Outline.read uri text = .ok outline ∧
      List.Forall₂ (Told uri) (reading.statements.filter (·.bound?.isSome)) outline.symbols ∧
      (∀ symbol ∈ outline.symbols, symbol.Points text) ∧
      outline.symbols.Pairwise Symbol.Before ∧
      outline.symbols.Pairwise (fun symbol later => symbol.range.Precedes later.range) := by
  obtain ⟨reading, tree, -⟩ := Grammar.read_formed standardLimit text short
  have read := read_of_reading tree uri
  exact ⟨reading, _, tree, read, symbols_told uri reading.statements, fun _ => symbol_points read,
    read_ascending read, ranges_apart read⟩

/-- Names behind a quoted line feed, behind another binding and behind a statement that fails. -/
theorem scattered_names_pointed_at :
    let text := "let s = \"a\nb\"; let f = fn(x, y) \x7b x \x7d;\nlet = 3; let z = 1;"
    (∀ token ∈ Token.scan text, token.kind = .int → token.literal.length ≤ 4300) ∧
      ∃ outline, Outline.read "file:///a.mky" text = .ok outline ∧
        outline.symbols =
          [⟨"s", .variable, "file:///a.mky", 0, 4, "let s"⟩,
            ⟨"f", .function, "file:///a.mky", 1, 8, "let f = fn(x, y)"⟩,
            ⟨"z", .variable, "file:///a.mky", 2, 13, "let z"⟩] ∧
        ∀ symbol ∈ outline.symbols, symbol.Points text := by
  intro text
  have short : ∀ token ∈ Token.scan text, token.kind = .int → token.literal.length ≤ 4300 := by decide
  have shown : (Outline.read "file:///a.mky" text).map Outline.symbols =
      .ok [⟨"s", .variable, "file:///a.mky", 0, 4, "let s"⟩,
        ⟨"f", .function, "file:///a.mky", 1, 8, "let f = fn(x, y)"⟩,
        ⟨"z", .variable, "file:///a.mky", 2, 13, "let z"⟩] := by
    decide +kernel
  obtain ⟨reading, outline, -, read, -, points, -⟩ :=
    symbols_point_at_names "file:///a.mky" text short
  rw [read] at shown
  exact ⟨short, outline, read, Except.ok.inj shown, points⟩

end Outline

end Marmoset
