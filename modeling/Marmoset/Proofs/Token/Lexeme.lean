import Marmoset.Token.Scan
import Marmoset.Proofs.Text.Numeral

/-!
How scanning passes over one lexeme after another. A word or a number ends where no further letter
or digit follows it, so each lexeme is scanned alone and the tokens of a text are put together from
the tokens of its parts.
-/

namespace Marmoset

theorem isDigit_iff (c : Char) : isDigit c = true ↔ 48 ≤ c.toNat ∧ c.toNat ≤ 57 := by
  simp only [isDigit, Bool.and_eq_true, decide_eq_true_eq]
  exact Iff.rfl

theorem isWordStart_iff (c : Char) : isWordStart c = true ↔
    (65 ≤ c.toNat ∧ c.toNat ≤ 90) ∨ (97 ≤ c.toNat ∧ c.toNat ≤ 122) ∨ c.toNat = 95 := by
  have underscore : c = '_' ↔ c.toNat = 95 := by
    rw [← Char.toNat_inj]
    rfl
  simp only [isWordStart, Bool.or_eq_true, Bool.and_eq_true, decide_eq_true_eq, underscore, or_assoc]
  exact Iff.rfl

theorem isBlank_iff (c : Char) :
    isBlank c = true ↔ c.toNat = 32 ∨ c.toNat = 9 ∨ c.toNat = 13 ∨ c.toNat = 10 := by
  simp only [isBlank, Bool.or_eq_true, decide_eq_true_eq, ← Char.toNat_inj, or_assoc]
  exact Iff.rfl

theorem isBlank_of_digit (c : Char) (digit : isDigit c = true) : isBlank c = false := by
  rw [isDigit_iff] at digit
  rw [Bool.eq_false_iff, Ne, isBlank_iff]
  omega

theorem isBlank_of_wordStart (c : Char) (start : isWordStart c = true) :
    isBlank c = false ∧ isDigit c = false := by
  rw [isWordStart_iff] at start
  rw [Bool.eq_false_iff, Bool.eq_false_iff, Ne, Ne, isBlank_iff, isDigit_iff]
  omega

theorem ofWord_class (word : String) :
    TokenKind.ofWord word ≠ .int ∧ TokenKind.ofWord word ≠ .string := by
  unfold TokenKind.ofWord
  split <;> decide

theorem ofChar?_class (c : Char) (kind : TokenKind) (sign : (TokenKind.ofChar? c).getD .illegal = kind) :
    kind ≠ .ident ∧ kind ≠ .int ∧ kind ≠ .string := by
  subst sign
  unfold TokenKind.ofChar?
  split <;> decide

/-- Nothing at the head of a text goes on with a word or a number. -/
def Bounded (rest : List Char) : Prop := ∀ c ∈ rest.head?, isWordPart c = false

theorem Bounded.nil : Bounded [] := fun _ member => nomatch member

theorem Bounded.cons {c : Char} {rest : List Char} (plain : isWordPart c = false) :
    Bounded (c :: rest) := by
  intro other member
  cases member
  exact plain

theorem takeWhile_bounded (part : Char → Bool) (more rest : List Char)
    (inside : ∀ c ∈ more, part c = true) (outside : ∀ c ∈ rest.head?, part c = false) :
    (more ++ rest).takeWhile part = more := by
  rw [List.takeWhile_append_of_pos inside]
  cases rest with
  | nil => simp
  | cons c rest => simp [outside c rfl]

namespace Lexeme

inductive Form (c : Char) (rest : List Char) : Lexeme → Prop
  | blank : Form c rest ⟨none, 0⟩
  | number (digit : isDigit c = true) :
    Form c rest ⟨some (.int, c :: rest.takeWhile isDigit), (rest.takeWhile isDigit).length⟩
  | word (start : isWordStart c = true) :
    Form c rest ⟨some (.ofWord (String.ofList (c :: rest.takeWhile isWordPart)),
      c :: rest.takeWhile isWordPart), (rest.takeWhile isWordPart).length⟩
  | closed (fewer : (rest.takeWhile (· ≠ '"')).length < rest.length) :
    Form c rest ⟨some (.string, rest.takeWhile (· ≠ '"')), (rest.takeWhile (· ≠ '"')).length + 1⟩
  | unclosed (plain : '"' ∉ rest) : Form c rest ⟨some (.illegal, '"' :: rest), rest.length⟩
  | pair {kind : TokenKind} (known : kind = .eq ∨ kind = .notEq) (filled : rest ≠ []) :
    Form c rest ⟨some (kind, [c, '=']), 1⟩
  | single (sign : c ≠ '"') : Form c rest ⟨some ((TokenKind.ofChar? c).getD .illegal, [c]), 0⟩

theorem unquoted_of_whole {rest : List Char}
    (whole : ¬ (rest.takeWhile (· ≠ '"')).length < rest.length) :
    rest.takeWhile (· ≠ '"') = rest ∧ '"' ∉ rest := by
  have all : rest.takeWhile (· ≠ '"') = rest :=
    (List.takeWhile_prefix _).eq_of_length_le (Nat.not_lt.mp whole)
  refine ⟨all, fun inside => ?_⟩
  rw [← all] at inside
  simpa using List.mem_takeWhile_imp inside

theorem quoted_form (rest : List Char) : Form '"' rest (quoted rest) := by
  unfold quoted
  dsimp only
  split
  · next fewer => exact .closed fewer
  · next whole =>
      rcases unquoted_of_whole whole with ⟨all, plain⟩
      rw [all]
      exact .unclosed plain

theorem read_form (c : Char) (rest : List Char) : Form c rest (read c rest) := by
  have filled (follows : rest.head? = some '=') : rest ≠ [] := by
    rintro rfl
    cases follows
  unfold read
  split
  · exact .blank
  split
  · next digit => exact .number digit
  split
  · next start => exact .word start
  split
  · next quote =>
      subst quote
      exact quoted_form rest
  next sign =>
  split
  · next equal =>
      rcases equal with ⟨rfl, follows⟩
      exact .pair (.inl rfl) (filled follows)
  split
  · next unequal =>
      rcases unequal with ⟨rfl, follows⟩
      exact .pair (.inr rfl) (filled follows)
  · exact .single sign

theorem mem_tokens {lexeme : Lexeme} {place : Place} {token : Token}
    (member : token ∈ lexeme.tokens place) :
    ∃ kind literal, lexeme.token = some (kind, literal) ∧
      token = ⟨kind, String.ofList literal, place.line, place.column⟩ := by
  rcases lexeme with ⟨_ | ⟨kind, literal⟩, extra⟩
  · cases member
  · exact ⟨kind, literal, rfl, List.mem_singleton.mp member⟩

end Lexeme

namespace Token

/-- Scanning passes over a text before `rest` and leaves the tokens given. -/
def Passes (text rest : List Char) (place : Place) (tokens : List Token) : Prop :=
  scanFrom 0 place (text ++ rest) = tokens ++ scanFrom 0 (place.after text) rest

theorem Passes.nil (rest : List Char) (place : Place) : Passes [] rest place [] := rfl

theorem Passes.append {first second rest : List Char} {place : Place} {before behind : List Token}
    (left : Passes first (second ++ rest) place before)
    (right : Passes second rest (place.after first) behind) :
    Passes (first ++ second) rest place (before ++ behind) := by
  unfold Passes at *
  rw [List.append_assoc, left, right, Place.after_append, List.append_assoc]

theorem passes_lexeme (c : Char) (more rest : List Char) (place : Place)
    (token : Option (TokenKind × List Char))
    (read : Lexeme.read c (more ++ rest) = ⟨token, more.length⟩) :
    Passes (c :: more) rest place (Lexeme.tokens ⟨token, more.length⟩ place) := by
  rw [Passes, List.cons_append, scanFrom_cons, read, List.take_left, List.drop_left]

theorem passes_space (rest : List Char) (place : Place) : Passes [' '] rest place [] :=
  passes_lexeme ' ' [] rest place none rfl

theorem passes_word (c : Char) (more rest : List Char) (place : Place)
    (start : isWordStart c = true) (parts : more.all isWordPart = true) (bounded : Bounded rest) :
    Passes (c :: more) rest place [⟨.ofWord (String.ofList (c :: more)), String.ofList (c :: more),
      place.line, place.column⟩] := by
  rcases isBlank_of_wordStart c start with ⟨blank, digit⟩
  have whole := takeWhile_bounded isWordPart more rest (List.all_eq_true.mp parts) bounded
  refine passes_lexeme c more rest place (some (.ofWord (String.ofList (c :: more)), c :: more)) ?_
  simp [Lexeme.read, blank, digit, start, whole]

theorem passes_number (c : Char) (more rest : List Char) (place : Place)
    (start : isDigit c = true) (digits : more.all isDigit = true) (bounded : Bounded rest) :
    Passes (c :: more) rest place [⟨.int, String.ofList (c :: more), place.line, place.column⟩] := by
  have outside : ∀ c ∈ rest.head?, isDigit c = false := by
    intro c member
    have plain := bounded c member
    rw [isWordPart, Bool.or_eq_false_iff] at plain
    exact plain.2
  have whole := takeWhile_bounded isDigit more rest (List.all_eq_true.mp digits) outside
  refine passes_lexeme c more rest place (some (.int, c :: more)) ?_
  simp [Lexeme.read, isBlank_of_digit c start, start, whole]

theorem passes_quoted (body rest : List Char) (place : Place) (plain : '"' ∉ body) :
    Passes ('"' :: (body ++ ['"'])) rest place
      [⟨.string, String.ofList body, place.line, place.column⟩] := by
  have inside : (body ++ '"' :: rest).takeWhile (· ≠ '"') = body := by
    refine takeWhile_bounded _ body _ ?_ (by simp)
    intro c member
    exact decide_eq_true (fun same => plain (same ▸ member))
  have read : Lexeme.read '"' (body ++ ['"'] ++ rest) =
      ⟨some (.string, body), (body ++ ['"']).length⟩ := by
    have quote : Lexeme.read '"' (body ++ ['"'] ++ rest) = Lexeme.quoted (body ++ '"' :: rest) := by
      rw [List.append_assoc]
      rfl
    rw [quote, Lexeme.quoted, inside]
    simp
  exact passes_lexeme '"' (body ++ ['"']) rest place (some (.string, body)) read

/-- Operators and delimiters of one character; an equals sign behind two of them would change them. -/
theorem passes_mark (c : Char) (kind : TokenKind) (rest : List Char) (place : Place)
    (mark : TokenKind.ofChar? c = some kind)
    (alone : c = '=' ∨ c = '!' → rest.head? ≠ some '=') :
    Passes [c] rest place [⟨kind, String.ofList [c], place.line, place.column⟩] := by
  refine passes_lexeme c [] rest place (some (kind, [c])) ?_
  have plain : isBlank c = false ∧ isDigit c = false ∧ isWordStart c = false ∧ c ≠ '"' := by
    unfold TokenKind.ofChar? at mark
    split at mark <;> first | decide | cases mark
  rcases plain with ⟨blank, digit, start, quote⟩
  have single : ¬ (c = '=' ∧ rest.head? = some '=') := fun pair => alone (.inl pair.1) pair.2
  have unequal : ¬ (c = '!' ∧ rest.head? = some '=') := fun pair => alone (.inr pair.1) pair.2
  simp only [Lexeme.read, List.nil_append, blank, digit, start, quote, single, unequal, mark, if_false,
    Bool.false_eq_true, Option.getD_some, List.length_nil]

theorem passes_delimiter (c : Char) (kind : TokenKind) (rest : List Char) (place : Place)
    (mark : TokenKind.ofChar? c = some kind) (plain : c ≠ '=' ∧ c ≠ '!') :
    Passes [c] rest place [⟨kind, String.ofList [c], place.line, place.column⟩] :=
  passes_mark c kind rest place mark
    fun sign => sign.elim (fun same => absurd same plain.1) fun same => absurd same plain.2

theorem passes_spaced (c : Char) (kind : TokenKind) (rest : List Char) (place : Place)
    (mark : TokenKind.ofChar? c = some kind) (plain : c ≠ '=' ∧ c ≠ '!') :
    Passes [c, ' '] rest place [⟨kind, String.ofList [c], place.line, place.column⟩] :=
  (passes_delimiter c kind (' ' :: rest) place mark plain).append (passes_space rest _)

theorem passes_equal (rest : List Char) (place : Place) :
    Passes ['=', '='] rest place [⟨.eq, "==", place.line, place.column⟩] :=
  passes_lexeme '=' ['='] rest place (some (.eq, ['=', '='])) rfl

theorem passes_unequal (rest : List Char) (place : Place) :
    Passes ['!', '='] rest place [⟨.notEq, "!=", place.line, place.column⟩] :=
  passes_lexeme '!' ['='] rest place (some (.notEq, ['!', '='])) rfl

theorem length_scanFrom (skip : Nat) (place : Place) (text : List Char) :
    (scanFrom skip place text).length ≤ text.length + 1 := by
  induction text generalizing skip place with
  | nil => cases skip <;> exact Nat.le_refl 1
  | cons c rest ih =>
      cases skip with
      | zero =>
          have single : ((Lexeme.read c rest).tokens place).length ≤ 1 := by
            unfold Lexeme.tokens
            split
            · exact Nat.zero_le 1
            · exact Nat.le_refl 1
          have others := ih (Lexeme.read c rest).extra (place.step c)
          rw [scanFrom, List.length_append, List.length_cons]
          omega
      | succ skip =>
          have others := ih skip (place.step c)
          rw [scanFrom, List.length_cons]
          omega

end Token

end Marmoset
