/-!
Tokens: a class, the literal text, and the place where the token starts.
-/

namespace Marmoset

/-- The classes of tokens. A token stream built by hand may carry a class of any other name. -/
inductive TokenKind
  | illegal
  | eof
  | ident
  | int
  | string
  | assign
  | plus
  | minus
  | bang
  | asterisk
  | slash
  | lt
  | gt
  | eq
  | notEq
  | comma
  | semicolon
  | colon
  | lparen
  | rparen
  | lbrace
  | rbrace
  | lbracket
  | rbracket
  | fnWord
  | letWord
  | trueWord
  | falseWord
  | ifWord
  | elseWord
  | returnWord
  | other (name : String)
  deriving DecidableEq, Repr

namespace TokenKind

def name : TokenKind → String
  | illegal => "ILLEGAL"
  | eof => "EOF"
  | ident => "IDENT"
  | int => "INT"
  | string => "STRING"
  | assign => "ASSIGN"
  | plus => "PLUS"
  | minus => "MINUS"
  | bang => "BANG"
  | asterisk => "ASTERISK"
  | slash => "SLASH"
  | lt => "LT"
  | gt => "GT"
  | eq => "EQ"
  | notEq => "NOT_EQ"
  | comma => "COMMA"
  | semicolon => "SEMICOLON"
  | colon => "COLON"
  | lparen => "LPAREN"
  | rparen => "RPAREN"
  | lbrace => "LBRACE"
  | rbrace => "RBRACE"
  | lbracket => "LBRACKET"
  | rbracket => "RBRACKET"
  | fnWord => "FUNCTION"
  | letWord => "LET"
  | trueWord => "TRUE"
  | falseWord => "FALSE"
  | ifWord => "IF"
  | elseWord => "ELSE"
  | returnWord => "RETURN"
  | other name => name

def named : List TokenKind :=
  [illegal, eof, ident, int, string, assign, plus, minus, bang, asterisk, slash, lt, gt, eq, notEq,
    comma, semicolon, colon, lparen, rparen, lbrace, rbrace, lbracket, rbracket, fnWord, letWord,
    trueWord, falseWord, ifWord, elseWord, returnWord]

def ofName (name : String) : TokenKind :=
  (named.find? (·.name = name)).getD (other name)

def ofWord (word : String) : TokenKind :=
  match word with
  | "fn" => fnWord
  | "let" => letWord
  | "true" => trueWord
  | "false" => falseWord
  | "if" => ifWord
  | "else" => elseWord
  | "return" => returnWord
  | _ => ident

def ofChar? (c : Char) : Option TokenKind :=
  match c with
  | '=' => some assign
  | '+' => some plus
  | '-' => some minus
  | '!' => some bang
  | '*' => some asterisk
  | '/' => some slash
  | '<' => some lt
  | '>' => some gt
  | ',' => some comma
  | ';' => some semicolon
  | ':' => some colon
  | '(' => some lparen
  | ')' => some rparen
  | '{' => some lbrace
  | '}' => some rbrace
  | '[' => some lbracket
  | ']' => some rbracket
  | _ => none

end TokenKind

/-- A token. The line counts from one and the column from zero; streams built by hand may hold any
integers there. -/
structure Token where
  kind : TokenKind
  literal : String
  line : Int
  column : Int
  deriving DecidableEq, Repr

namespace Token

/-- The end of a token stream, supplied where the stream holds none. -/
def ending (line : Int) : Token := ⟨.eof, "", line, 0⟩

/-- Two tokens agree when class, literal and line do; the column is not compared. -/
def agrees (a b : Token) : Bool :=
  a.kind = b.kind && a.literal = b.literal && a.line = b.line

def agreeAll : List Token → List Token → Bool
  | [], [] => true
  | a :: as, b :: bs => a.agrees b && agreeAll as bs
  | _, _ => false

end Token

end Marmoset
