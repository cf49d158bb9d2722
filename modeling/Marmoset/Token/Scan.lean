import Marmoset.Token

/-!
Scanning: the tokens of a text. The longest lexeme at the head of the text is taken, blank space is
passed over, and a character that starts nothing becomes a token of its own, so scanning never fails.
-/

namespace Marmoset

/-- A place in a text: the line counts from one, the column from zero. -/
structure Place where
  line : Int
  column : Int
  deriving DecidableEq, Repr

namespace Place

def start : Place := ⟨1, 0⟩

def step (place : Place) (c : Char) : Place :=
  if c = '\n' then ⟨place.line + 1, 0⟩ else ⟨place.line, place.column + 1⟩

def after (place : Place) (text : List Char) : Place := text.foldl step place

@[simp] theorem after_nil (place : Place) : place.after [] = place := rfl

@[simp] theorem after_cons (place : Place) (c : Char) (text : List Char) :
    place.after (c :: text) = (place.step c).after text := rfl

theorem after_append (place : Place) (left right : List Char) :
    place.after (left ++ right) = (place.after left).after right := by
  simp [after]

end Place

def isBlank (c : Char) : Bool := c = ' ' || c = '\t' || c = '\r' || c = '\n'

def isDigit (c : Char) : Bool := '0' ≤ c && c ≤ '9'

def isWordStart (c : Char) : Bool := ('A' ≤ c && c ≤ 'Z') || ('a' ≤ c && c ≤ 'z') || c = '_'

def isWordPart (c : Char) : Bool := isWordStart c || isDigit c

/-- What stands at the head of a text: a token, or blank space, and how many characters it takes
besides the first. -/
structure Lexeme where
  token : Option (TokenKind × List Char)
  extra : Nat

namespace Lexeme

/-- A quoted text up to the next quote; without one, all that is left is illegal. -/
def quoted (rest : List Char) : Lexeme :=
  let body := rest.takeWhile (· ≠ '"')
  if body.length < rest.length then ⟨some (.string, body), body.length + 1⟩
  else ⟨some (.illegal, '"' :: body), body.length⟩

def read (c : Char) (rest : List Char) : Lexeme :=
  if isBlank c then ⟨none, 0⟩
  else if isDigit c then
    let more := rest.takeWhile isDigit
    ⟨some (.int, c :: more), more.length⟩
  else if isWordStart c then
    let more := rest.takeWhile isWordPart
    ⟨some (.ofWord (String.ofList (c :: more)), c :: more), more.length⟩
  else if c = '"' then quoted rest
  else if c = '=' ∧ rest.head? = some '=' then ⟨some (.eq, ['=', '=']), 1⟩
  else if c = '!' ∧ rest.head? = some '=' then ⟨some (.notEq, ['!', '=']), 1⟩
  else ⟨some ((TokenKind.ofChar? c).getD .illegal, [c]), 0⟩

def tokens (lexeme : Lexeme) (place : Place) : List Token :=
  match lexeme.token with
  | none => []
  | some (kind, literal) => [⟨kind, String.ofList literal, place.line, place.column⟩]

end Lexeme

namespace Token

/-- The tokens of a text whose first `skip` characters belong to a lexeme already taken. -/
def scanFrom : Nat → Place → List Char → List Token
  | _, place, [] => [⟨.eof, "", place.line, place.column⟩]
  | skip + 1, place, c :: rest => scanFrom skip (place.step c) rest
  | 0, place, c :: rest =>
    let lexeme := Lexeme.read c rest
    lexeme.tokens place ++ scanFrom lexeme.extra (place.step c) rest

theorem scanFrom_skip (skip : Nat) (place : Place) (text : List Char) :
    scanFrom skip place text = scanFrom 0 (place.after (text.take skip)) (text.drop skip) := by
  induction skip generalizing place text with
  | zero => simp
  | succ skip ih =>
    cases text with
    | nil => simp [scanFrom]
    | cons c rest => simp only [scanFrom, List.take_succ_cons, List.drop_succ_cons, Place.after_cons, ih]

theorem scanFrom_cons (place : Place) (c : Char) (rest : List Char) :
    scanFrom 0 place (c :: rest) =
      (Lexeme.read c rest).tokens place ++
        scanFrom 0 (place.after (c :: rest.take (Lexeme.read c rest).extra))
          (rest.drop (Lexeme.read c rest).extra) := by
  rw [scanFrom, scanFrom_skip]
  rfl

def scan (source : String) : List Token := scanFrom 0 .start source.toList

end Token

end Marmoset
