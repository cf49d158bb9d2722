import Marmoset.Operator

/-!
Syntax trees. One type holds every form, because evaluation is defined on trees built by hand as
well: there any form, or a leaf that is no form at all, may stand in any place.
-/

namespace Marmoset

/-- A name at its place: a reference, a parameter, or the target of a binding. -/
structure Name where
  text : String
  line : Int
  column : Int
  deriving DecidableEq, Repr

/-- A leaf that belongs to no form of the language. -/
inductive Foreign
  | absent
  | text (value : String)
  | integer (value : Int)
  | boolean (value : Bool)
  | sequence
  deriving DecidableEq, Repr

namespace Foreign

def kind : Foreign → String
  | absent => "NoneType"
  | text _ => "str"
  | integer _ => "int"
  | boolean _ => "bool"
  | sequence => "tuple"

def spelling : Foreign → String
  | absent => "None"
  | text value => value
  | integer value => toString value
  | boolean true => "True"
  | boolean false => "False"
  | sequence => "()"

end Foreign

/-- A node of a syntax tree, with the line of the token it was read from. -/
inductive Node
  | identifier (name : Name)
  | integer (value : Int) (line : Int)
  | boolean (value : Bool) (line : Int)
  | string (value : String) (line : Int)
  | array (elements : List Node) (line : Int)
  | map (pairs : List (Node × Node)) (line : Int)
  | unary (operator : Operator) (operand : Node) (line : Int)
  | binary (left : Node) (operator : Operator) (right : Node) (line : Int)
  | conditional (condition consequence : Node) (alternative : Option Node) (line : Int)
  | function (parameters : List Name) (body : Node) (line : Int)
  | call (callee : Node) (arguments : List Node) (line : Int)
  | index (container position : Node) (line : Int)
  | binding (name : Name) (value : Node) (line : Int)
  | returning (value : Node) (line : Int)
  | statement (expression : Node) (line : Int)
  | block (statements : List Node) (line : Int)
  | program (statements : List Node)
  | foreign (leaf : Foreign)
  deriving Repr, Inhabited

end Marmoset
