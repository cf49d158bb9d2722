import Marmoset.Proofs.Grammar.Locality
import Marmoset.Proofs.Tree.Form

/-!
What is read is well formed, whether or not something is reported on the way: of a statement that fails
nothing is kept. Names and literals are as a token spells them, and the scanner makes no others.
-/

namespace Marmoset

/-- What the scanner promises of a token. -/
structure Token.Valid (token : Token) : Prop where
  word : token.kind = .ident → isIdentifier token.literal = true
  digits : token.kind = .int →
    token.literal.toList ≠ [] ∧ ∀ c ∈ token.literal.toList, isDigit c = true
  unquoted : token.kind = .string → '"' ∉ token.literal.toList

namespace Token.Valid

variable {token : Token}

theorem of_kind (other : token.kind ≠ .ident ∧ token.kind ≠ .int ∧ token.kind ≠ .string) :
    token.Valid :=
  ⟨fun kind => absurd kind other.1, fun kind => absurd kind other.2.1,
    fun kind => absurd kind other.2.2⟩

theorem shown (valid : token.Valid) (kind : token.kind = .int) :
    ∃ digits : List Nat, token.literal.toList.map Text.digitValue? = digits.map some ∧ digits ≠ [] ∧
      digits.length = token.literal.length := by
  rcases valid.digits kind with ⟨nonempty, digits⟩
  refine ⟨token.literal.toList.map fun c => c.toNat - '0'.toNat, ?_, ?_, ?_⟩
  · rw [List.map_map]
    apply List.map_congr_left
    intro c member
    exact Text.digitValue?_ascii c (Char.isDigit_iff_toNat.mpr ((isDigit_iff c).mp (digits c member)))
  · simpa using nonempty
  · rw [List.length_map, String.length_toList]

theorem natural (valid : token.Valid) (kind : token.kind = .int) {value : Int}
    (read : Text.readInteger token.literal = .ok value) : 0 ≤ value := by
  rcases valid.shown kind with ⟨digits, shown, nonempty, -⟩
  rw [Text.readInteger_shown _ digits nonempty shown] at read
  split at read <;> cases read
  exact Int.natCast_nonneg _

theorem numeral (valid : token.Valid) (kind : token.kind = .int)
    (short : token.literal.length ≤ 4300) : ∃ value, Text.Numeral token.literal value := by
  rcases valid.shown kind with ⟨digits, shown, nonempty, length⟩
  exact ⟨_, digits, shown, nonempty, by omega, rfl⟩

end Token.Valid

theorem lexeme_valid (c : Char) (rest : List Char) (place : Place) :
    ∀ token ∈ (Lexeme.read c rest).tokens place, token.Valid := by
  intro token member
  rcases Lexeme.mem_tokens member with ⟨kind, literal, read, rfl⟩
  have form := Lexeme.read_form c rest
  generalize Lexeme.read c rest = lexeme at read form
  cases form with
  | blank => cases read
  | number digit =>
      cases read
      refine ⟨fun kind => (nomatch kind), fun _ => ?_, fun kind => (nomatch kind)⟩
      rw [String.toList_ofList]
      refine ⟨List.cons_ne_nil _ _, List.forall_mem_cons.mpr ⟨digit, fun d inside => ?_⟩⟩
      exact List.mem_takeWhile_imp inside
  | word start =>
      cases read
      have class_of := ofWord_class (String.ofList (c :: rest.takeWhile isWordPart))
      refine ⟨fun kind => ?_, fun kind => absurd kind class_of.1, fun kind => absurd kind class_of.2⟩
      have parts : (rest.takeWhile isWordPart).all isWordPart = true :=
        List.all_eq_true.mpr fun d inside => List.mem_takeWhile_imp inside
      have ident : TokenKind.ofWord (String.ofList (c :: rest.takeWhile isWordPart)) = .ident := kind
      simp only [isIdentifier, String.toList_ofList, start, parts, ident, decide_true, Bool.and_self]
  | closed fewer =>
      cases read
      refine ⟨fun kind => (nomatch kind), fun kind => (nomatch kind), fun _ inside => ?_⟩
      rw [String.toList_ofList] at inside
      simpa using List.mem_takeWhile_imp inside
  | unclosed plain =>
      cases read
      exact .of_kind (by simp)
  | pair known filled =>
      cases read
      rcases known with rfl | rfl <;> exact .of_kind (by simp)
  | single sign =>
      cases read
      exact .of_kind (ofChar?_class c _ rfl)

theorem scanFrom_valid (skip : Nat) (place : Place) (text : List Char) :
    ∀ token ∈ Token.scanFrom skip place text, token.Valid := by
  induction text generalizing skip place with
  | nil =>
      intro token member
      rw [Token.scanFrom, List.mem_singleton] at member
      subst member
      exact .of_kind (by simp)
  | cons c rest ih =>
      cases skip with
      | succ skip => exact ih skip (place.step c)
      | zero =>
          rw [Token.scanFrom]
          exact List.forall_mem_append.mpr ⟨lexeme_valid c rest place, ih _ _⟩

theorem scan_valid (source : String) : ∀ token ∈ Token.scan source, token.Valid :=
  scanFrom_valid 0 .start source.toList

theorem forall₂_diagonal {α : Type} {property : α → Prop} {first second : List α}
    (related : List.Forall₂ (fun one other => one = other ∧ property one) first second) :
    first = second ∧ ∀ one ∈ first, property one := by
  induction related with
  | nil => exact ⟨rfl, by simp⟩
  | cons same _ ih => exact ⟨by rw [same.1, ih.1], List.forall_mem_cons.mpr ⟨same.2, ih.2⟩⟩

open Node Grammar in
def Congruence.formed : Congruence where
  token first second := first = second ∧ first.Valid
  name first second := first = second ∧ isIdentifier first.text = true
  expression first second := first = second ∧ first.isExpression = true ∧ first.wellFormed = true
  block first second := first = second ∧ first.isBlock = true ∧ first.wellFormed = true
  statement first second := first = second ∧ first.isStatement = true ∧ first.wellFormed = true
  kind := fun same => same.1 ▸ rfl
  literal := fun same => same.1 ▸ rfl
  named := fun same kind => ⟨same.1 ▸ rfl, same.2.word kind⟩
  identifier := by
    rintro name _ ⟨rfl, valid⟩
    exact ⟨rfl, rfl, wellFormed_plain rfl rfl valid (by simp [children])⟩
  integer := by
    rintro token _ value ⟨rfl, valid⟩ kind read small
    have range : 0 ≤ value ∧ value ≤ integerMax := ⟨valid.natural kind read, small⟩
    exact ⟨rfl, rfl, wellFormed_plain rfl rfl (by simpa [spelled] using range) (by simp [children])⟩
  string := by
    rintro token _ ⟨rfl, valid⟩ kind
    have plain := valid.unquoted kind
    exact ⟨rfl, rfl, wellFormed_plain rfl rfl (by simpa [spelled] using plain) (by simp [children])⟩
  boolean := by
    rintro token _ value ⟨rfl, -⟩
    exact ⟨rfl, rfl, wellFormed_plain rfl rfl rfl (by simp [children])⟩
  array := by
    rintro token _ elements _ ⟨rfl, -⟩ related
    rcases forall₂_diagonal related with ⟨rfl, inside⟩
    exact ⟨rfl, rfl, wellFormed_plain rfl rfl rfl (by simpa [children] using inside)⟩
  map := by
    intro token _ pairs others alike related
    rcases alike with ⟨rfl, -⟩
    have diagonal : List.Forall₂ (fun pair other => pair = other ∧
        (pair.1.isExpression = true ∧ pair.1.wellFormed = true) ∧
          pair.2.isExpression = true ∧ pair.2.wellFormed = true) pairs others :=
      related.imp fun pair other same => ⟨Prod.ext same.1.1 same.2.1, same.1.2, same.2.2⟩
    rcases forall₂_diagonal diagonal with ⟨rfl, inside⟩
    refine ⟨rfl, rfl, wellFormed_plain rfl rfl rfl ?_⟩
    simp only [children, operands, tails, enclosed, List.append_nil, List.mem_flatMap]
    rintro child ⟨pair, member, own⟩
    rcases inside pair member with ⟨key, value⟩
    simp only [List.mem_cons, List.not_mem_nil, or_false] at own
    rcases own with rfl | rfl
    · exact key
    · exact value
  unary := by
    rintro token _ operator operand _ ⟨rfl, -⟩ sign ⟨rfl, inner⟩
    exact ⟨rfl, rfl, wellFormed_plain rfl (by simpa [operated] using sign) rfl
      (by simpa [children] using inner)⟩
  binary := by
    rintro token _ operator left _ right _ ⟨rfl, -⟩ sign ⟨rfl, first⟩ ⟨rfl, second⟩
    have binary : operator ≠ .not := by
      rintro rfl
      revert sign
      cases token.kind <;> simp [TokenKind.binary?]
    exact ⟨rfl, rfl, wellFormed_plain rfl (by simpa [operated] using binary) rfl
      (by simpa [children] using ⟨first, second⟩)⟩
  conditional := by
    rintro token _ condition _ chosen _ rejected rejected' ⟨rfl, -⟩ ⟨rfl, test, deep⟩ ⟨rfl, block⟩ other
    cases other with
    | none =>
        exact ⟨rfl, rfl, wellFormed_of (by simp [placed, test, block.1]) rfl rfl
          (by simp [children, deep, block.2])⟩
    | some inner =>
        rcases inner with ⟨rfl, other⟩
        exact ⟨rfl, rfl, wellFormed_of (by simp [placed, test, block.1, other.1]) rfl rfl
          (by simp [children, deep, block.2, other.2])⟩
  function := by
    rintro token _ parameters _ body _ ⟨rfl, -⟩ related ⟨rfl, block⟩
    rcases forall₂_diagonal related with ⟨rfl, names⟩
    exact ⟨rfl, rfl, wellFormed_of block.1 rfl (by simpa [spelled] using names)
      (by simpa [children] using block.2)⟩
  call := by
    rintro token _ callee _ arguments _ ⟨rfl, -⟩ ⟨rfl, function⟩ related
    rcases forall₂_diagonal related with ⟨rfl, inside⟩
    exact ⟨rfl, rfl, wellFormed_plain rfl rfl rfl (by simpa [children] using ⟨function, inside⟩)⟩
  index := by
    rintro token _ container _ position _ ⟨rfl, -⟩ ⟨rfl, first⟩ ⟨rfl, second⟩
    exact ⟨rfl, rfl, wellFormed_plain rfl rfl rfl (by simpa [children] using ⟨first, second⟩)⟩
  braces := by
    rintro token _ statements _ ⟨rfl, -⟩ related
    rcases forall₂_diagonal related with ⟨rfl, inside⟩
    exact ⟨rfl, rfl, wellFormed_of (List.all_eq_true.mpr fun node member => (inside node member).1)
      rfl rfl (by simpa [children] using fun node member => (inside node member).2)⟩
  binding := by
    rintro token _ target _ value _ ⟨rfl, -⟩ ⟨rfl, valid⟩ ⟨rfl, inner⟩
    exact ⟨rfl, rfl, wellFormed_plain rfl rfl valid (by simpa [children] using inner)⟩
  returning := by
    rintro token _ value _ ⟨rfl, -⟩ ⟨rfl, inner⟩
    exact ⟨rfl, rfl, wellFormed_plain rfl rfl rfl (by simpa [children] using inner)⟩
  bare := by
    rintro token _ value _ ⟨rfl, -⟩ ⟨rfl, inner⟩
    exact ⟨rfl, rfl, wellFormed_plain rfl rfl rfl (by simpa [children] using inner)⟩

/-- One reading beside itself, on tokens that the scanner may have made. -/
def Track.valid : Track .formed where
  near left right := left = right ∧ ∀ token ∈ left.tokens, token.Valid
  onward := True
  braced := True
  scarce := False
  current := by
    rintro left _ ⟨rfl, valid⟩
    refine ⟨rfl, ?_⟩
    cases stream : left.tokens with
    | nil => exact .of_kind (by simp [Cursor.current, stream, Token.ending])
    | cons token rest =>
        rw [left.current_of_tokens token rest stream]
        exact valid token (by simp [stream])
  peek := by
    rintro left _ ⟨rfl, valid⟩ -
    refine ⟨rfl, ?_⟩
    cases stream : left.tokens.tail with
    | nil => exact .of_kind (by simp [Cursor.peek, stream, Token.ending])
    | cons token rest =>
        rw [left.peek_of_tokens token rest stream]
        exact valid token (List.mem_of_mem_tail (by simp [stream]))
  advance := by
    rintro left _ ⟨rfl, valid⟩ -
    exact ⟨rfl, fun token member => valid token (List.mem_of_mem_tail member)⟩
  report := by
    rintro left _ token _ problem ⟨rfl, valid⟩ ⟨rfl, -⟩
    exact ⟨rfl, valid⟩
  depth := by
    rintro left _ before _ ⟨rfl, -⟩ ⟨rfl, -⟩
    rfl
  opened := fun _ _ => trivial
  behind := by
    rintro left _ - ⟨rfl, valid⟩
    exact .inl ⟨rfl, fun token member => valid token (List.mem_of_mem_tail member)⟩
  resumed := by
    rintro left _ - ⟨rfl, valid⟩
    exact .inl ⟨rfl, fun token member =>
      valid token (left.resume_leads.advance.suffix.subset member)⟩

namespace Grammar

/-- Whatever is read of tokens from the scanner is well formed. -/
theorem readTokens_formed {limit : Nat} {tokens : List Token}
    (valid : ∀ token ∈ tokens, token.Valid) {reading : Reading}
    (read : readTokens limit tokens = .ok reading) : reading.program.wellFormed = true := by
  have abreast := program_abreast .valid trivial trivial limit limit (.inl rfl) (tokens.length + 1)
    (tokens.length + 1) ⟨rfl, valid⟩ (Nat.lt_succ_self _) (Nat.lt_succ_self _)
  have outcome : Outcome.Abreast .valid _ _ _ (program limit tokens) (program limit tokens) := abreast
  have inside : ∀ node ∈ reading.statements, node.isStatement = true ∧ node.wellFormed = true := by
    cases result : program limit tokens with
    | read nodes after =>
        rw [result] at outcome
        rw [readTokens_of_read result] at read
        cases read
        cases outcome with
        | read same => exact (forall₂_diagonal same).2
        | parted parts void => exact void.elim
    | failed after => exact absurd result (statements_unfailed _ _ _ _ _)
    | tooDeep after =>
        rw [readTokens_of_tooDeep result] at read
        cases read
        simp
    | abandoned error =>
        rw [readTokens_of_abandoned result] at read
        cases read
  refine Node.wellFormed_of ?_ rfl rfl ?_
  · exact List.all_eq_true.mpr fun node member => (inside node member).1
  · simpa [Reading.program, Node.children] using fun node member => (inside node member).2

theorem scan_written (source : String)
    (short : ∀ token ∈ Token.scan source, token.kind = .int → token.literal.length ≤ 4300) :
    Written (Token.scan source) :=
  fun token member kind => (scan_valid source token member).numeral kind (short token member kind)

theorem read_formed (limit : Nat) (source : String)
    (short : ∀ token ∈ Token.scan source, token.kind = .int → token.literal.length ≤ 4300) :
    ∃ reading, read limit source = .ok reading ∧ reading.program.wellFormed = true := by
  rcases readTokens_total limit (Token.scan source) (scan_written source short) with ⟨reading, read⟩
  exact ⟨reading, read, readTokens_formed (scan_valid source) read⟩

end Grammar

end Marmoset
