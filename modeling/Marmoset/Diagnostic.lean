import Marmoset.Token

/-!
Diagnostics: what is wrong with a token stream, and on which line.
-/

namespace Marmoset

inductive Problem
  | expected (wanted found : TokenKind)
  | noOperand (found : TokenKind)
  | integerTooLarge (literal : String)
  | nestedTooDeep
  deriving DecidableEq, Repr

namespace Problem

def message : Problem → String
  | expected wanted found =>
    "expected next token to be " ++ wanted.name ++ ", got " ++ found.name ++ " instead"
  | noOperand found => "no prefix parse function for " ++ found.name ++ " found"
  | integerTooLarge literal => "could not parse " ++ literal ++ " as integer"
  | nestedTooDeep => "maximum recursion depth exceeded"

end Problem

structure Diagnostic where
  problem : Problem
  line : Int
  deriving DecidableEq, Repr

def Diagnostic.text (diagnostic : Diagnostic) : String :=
  diagnostic.problem.message ++ " on line " ++ toString diagnostic.line

end Marmoset
