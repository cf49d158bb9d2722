import Marmoset.Tree

/-!
The canonical text of a tree: every operator application in parentheses, so that the text shows the
structure.
-/

namespace Marmoset.Node

mutual

def canonical : Node → String
  | identifier name => name.text
  | integer value _ => toString value
  | boolean value _ => if value then "true" else "false"
  | string value _ => "\"" ++ value ++ "\""
  | array elements _ => "[" ++ ", ".intercalate (canonicals elements) ++ "]"
  | map pairs _ => "\x7b" ++ ", ".intercalate (canonicalPairs pairs) ++ "\x7d"
  | unary operator operand _ => "(" ++ operator.symbol ++ canonical operand ++ ")"
  | binary left operator right _ =>
    "(" ++ canonical left ++ " " ++ operator.symbol ++ " " ++ canonical right ++ ")"
  | conditional condition consequence none _ =>
    "if" ++ canonical condition ++ " " ++ canonical consequence
  | conditional condition consequence (some alternative) _ =>
    "if" ++ canonical condition ++ " " ++ canonical consequence ++ "else " ++ canonical alternative
  | function parameters body _ =>
    "fn(" ++ ", ".intercalate (parameters.map Name.text) ++ ") " ++ canonical body
  | call callee arguments _ =>
    canonical callee ++ "(" ++ ", ".intercalate (canonicals arguments) ++ ")"
  | index container position _ => "(" ++ canonical container ++ "[" ++ canonical position ++ "])"
  | binding name value _ => "let " ++ name.text ++ " = " ++ canonical value ++ ";"
  | returning value _ => "return " ++ canonical value ++ ";"
  | statement expression _ => canonical expression
  | block statements _ => String.join (canonicals statements)
  | program statements => String.join (canonicals statements)
  | foreign leaf => leaf.spelling
termination_by structural node => node

def canonicals : List Node → List String
  | [] => []
  | node :: nodes => canonical node :: canonicals nodes
termination_by structural nodes => nodes

def canonicalPairs : List (Node × Node) → List String
  | [] => []
  | (key, value) :: pairs => (canonical key ++ ": " ++ canonical value) :: canonicalPairs pairs
termination_by structural pairs => pairs

end

mutual

/-- The frames that writing the canonical text takes: every node has a call of its own, and a list is
gone through by one more. -/
def textFrames : Node → Nat
  | identifier _ | integer _ _ | boolean _ _ | string _ _ | foreign _ => 1
  | array elements _ => 2 + textFramesAll elements
  | map pairs _ => 2 + textFramesPairs pairs
  | unary _ operand _ => 1 + textFrames operand
  | binary left _ right _ => 1 + max (textFrames left) (textFrames right)
  | conditional condition consequence none _ =>
    1 + max (textFrames condition) (textFrames consequence)
  | conditional condition consequence (some alternative) _ =>
    1 + max (max (textFrames condition) (textFrames consequence)) (textFrames alternative)
  | function _ body _ => 1 + max 2 (textFrames body)
  | call callee arguments _ => 1 + max (textFrames callee) (1 + textFramesAll arguments)
  | index container position _ => 1 + max (textFrames container) (textFrames position)
  | binding _ value _ => 1 + textFrames value
  | returning value _ => 1 + textFrames value
  | statement expression _ => 1 + textFrames expression
  | block statements _ => 2 + textFramesAll statements
  | program statements => 2 + textFramesAll statements
termination_by structural node => node

def textFramesAll : List Node → Nat
  | [] => 0
  | node :: nodes => max (textFrames node) (textFramesAll nodes)
termination_by structural nodes => nodes

def textFramesPairs : List (Node × Node) → Nat
  | [] => 0
  | (key, value) :: pairs => max (max (textFrames key) (textFrames value)) (textFramesPairs pairs)
termination_by structural pairs => pairs

end

end Marmoset.Node
