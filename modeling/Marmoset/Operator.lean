import Marmoset.Token

/-!
Operators, the token classes that stand for them, and how tightly each token class binds.
-/

namespace Marmoset

inductive Operator
  | add
  | sub
  | mul
  | div
  | eq
  | ne
  | lt
  | gt
  | not
  deriving DecidableEq, Repr

namespace Operator

def symbol : Operator → String
  | add => "+"
  | sub => "-"
  | mul => "*"
  | div => "/"
  | eq => "=="
  | ne => "!="
  | lt => "<"
  | gt => ">"
  | not => "!"

def all : List Operator := [add, sub, mul, div, eq, ne, lt, gt, not]

def ofSymbol? (symbol : String) : Option Operator := all.find? (·.symbol = symbol)

end Operator

/-- How tightly a token binds the expression on its left: a greater number binds tighter. -/
abbrev Power := Nat

namespace Power

def lowest : Power := 1
def equality : Power := 2
def comparison : Power := 3
def sum : Power := 4
def product : Power := 5
def unary : Power := 6
def call : Power := 7
def index : Power := 8

end Power

namespace TokenKind

def power : TokenKind → Power
  | eq | notEq => .equality
  | lt | gt => .comparison
  | plus | minus => .sum
  | slash | asterisk => .product
  | lparen => .call
  | lbracket => .index
  | _ => .lowest

theorem power_range (kind : TokenKind) : Power.lowest ≤ kind.power ∧ kind.power ≤ Power.index := by
  unfold power
  split <;> decide

def binary? : TokenKind → Option Operator
  | plus => some .add
  | minus => some .sub
  | asterisk => some .mul
  | slash => some .div
  | eq => some .eq
  | notEq => some .ne
  | lt => some .lt
  | gt => some .gt
  | _ => none

end TokenKind

end Marmoset
