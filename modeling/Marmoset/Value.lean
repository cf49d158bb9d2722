import Marmoset.Tree.Canonical

/-!
Values, and the faults that evaluation ends in. Arrays, hashes, functions and return markers carry
an identity, by which the language compares them; scopes are named by their number in the store.
-/

namespace Marmoset

inductive TypeTag
  | integer
  | boolean
  | string
  | array
  | hash
  | function
  | builtin
  | error
  | null
  | returned
  deriving DecidableEq, Repr

def TypeTag.name : TypeTag → String
  | integer => "INTEGER"
  | boolean => "BOOLEAN"
  | string => "STRING"
  | array => "ARRAY"
  | hash => "HASH"
  | function => "FUNCTION"
  | builtin => "BUILTIN"
  | error => "ERROR"
  | null => "NULL"
  | returned => "RETURN_VALUE"

inductive Builtin
  | len
  | first
  | last
  | rest
  | push
  | puts
  deriving DecidableEq, Repr

namespace Builtin

def name : Builtin → String
  | len => "len"
  | first => "first"
  | last => "last"
  | rest => "rest"
  | push => "push"
  | puts => "puts"

def all : List Builtin := [len, first, last, rest, push, puts]

def ofName? (name : String) : Option Builtin := all.find? (·.name = name)

end Builtin

inductive Fault
  | unbound (name : String)
  | unaryUnsupported (operator : Operator) (operand : TypeTag)
  | binaryUnsupported (left : TypeTag) (operator : Operator) (right : TypeTag)
  | mismatch (left : TypeTag) (operator : Operator) (right : TypeTag)
  | divisionByZero
  | unhashable (tag : TypeTag)
  | notIndexable (tag : TypeTag)
  | notCallable (tag : TypeTag)
  | arity (got want : Nat)
  | unmeasurable (tag : TypeTag)
  | notArray (builtin : Builtin) (tag : TypeTag)
  | stackExhausted
  /-- A fault made outside the evaluator. -/
  | reported (text : String)
  deriving DecidableEq, Repr

namespace Fault

def message : Fault → String
  | unbound name => "identifier not found: " ++ name
  | unaryUnsupported operator operand => "unknown operator: " ++ operator.symbol ++ operand.name
  | binaryUnsupported left operator right =>
    "unknown operator: " ++ left.name ++ " " ++ operator.symbol ++ " " ++ right.name
  | mismatch left operator right =>
    "type mismatch: " ++ left.name ++ " " ++ operator.symbol ++ " " ++ right.name
  | divisionByZero => "division by zero"
  | unhashable tag => "unusable as hash key: " ++ tag.name
  | notIndexable tag => "index operator not supported: " ++ tag.name
  | notCallable tag => "not a function: " ++ tag.name
  | arity got want =>
    "wrong number of arguments. got=" ++ toString got ++ ", want=" ++ toString want
  | unmeasurable tag => "argument to `len` not supported. got " ++ tag.name
  | notArray builtin tag =>
    "argument to `" ++ builtin.name ++ "` must be ARRAY, got " ++ tag.name
  | stackExhausted => "maximum recursion depth exceeded"
  | reported text => text

end Fault

/-- The keys of a hash: integers, booleans and strings, which differ from one another even where
they look alike. -/
inductive Key
  | integer (value : Int)
  | boolean (value : Bool)
  | string (value : String)
  deriving DecidableEq, Repr

abbrev ScopeId := Nat

/-- What tells apart two values with the same contents. -/
abbrev Identity := Nat

inductive Value
  | integer (value : Int)
  | boolean (value : Bool)
  | string (value : String)
  | null
  | array (identity : Identity) (elements : List Value)
  | hash (identity : Identity) (entries : List (Key × Value))
  | function (identity : Identity) (parameters : List Name) (body : Node) (scope : ScopeId)
  | builtin (builtin : Builtin)
  | error (fault : Fault)
  /-- The value of a return statement on its way to the nearest call. -/
  | returned (identity : Identity) (value : Value)
  deriving Repr, Inhabited

namespace Key

def toValue : Key → Value
  | integer value => .integer value
  | boolean value => .boolean value
  | string value => .string value

end Key

namespace Value

def tag : Value → TypeTag
  | integer _ => .integer
  | boolean _ => .boolean
  | string _ => .string
  | null => .null
  | array _ _ => .array
  | hash _ _ => .hash
  | function _ _ _ _ => .function
  | builtin _ => .builtin
  | error _ => .error
  | returned _ _ => .returned

def truthy : Value → Bool
  | boolean value => value
  | null => false
  | _ => true

def key? : Value → Option Key
  | integer value => some (.integer value)
  | boolean value => some (.boolean value)
  | string value => some (.string value)
  | _ => none

/-- The value inside a return marker; only one marker is taken off. -/
def unwrap : Value → Value
  | returned _ value => value
  | value => value

def isError : Value → Bool
  | error _ => true
  | _ => false

def isReturned : Value → Bool
  | returned _ _ => true
  | _ => false

def ofExcept : Except Fault Value → Value
  | .ok value => value
  | .error reason => error reason

end Value

/-- The entries of a hash, in the order in which their keys were first written. -/
abbrev Entries := List (Key × Value)

end Marmoset
