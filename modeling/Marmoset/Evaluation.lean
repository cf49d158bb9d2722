import Marmoset.Evaluation.Builtin
import Marmoset.Evaluation.Operation

/-!
Evaluation of trees. `step` is the agenda of a node, in terms of how the nodes inside it evaluate, and
`evaluate` ties the knot. An error is a value, and whoever asks for a value checks whether it is one: an
error is handed on at once and nothing else is done. Only an exhausted stack, and a leaf that is no form
of the language, stop an evaluation from outside of the language.
-/

namespace Marmoset.Evaluation

open Agenda

def sequence (scope : ScopeId) : Value → List Node → Agenda Value
  | last, [] => pure last
  | _, node :: nodes => do
    let value ← ask 1 scope node
    if value.isReturned || value.isError then return value
    sequence scope value nodes

/-- Evaluates expressions from left to right, behind values that are there already. From the first error
on, there is a list of nothing but that error. -/
def all (scope : ScopeId) : List Value → List Node → Agenda (List Value)
  | values, [] => pure values
  | values, node :: nodes => do
    let value ← ask 1 scope node
    if value.isError then return [value]
    all scope (values ++ [value]) nodes

def expressions (scope : ScopeId) (nodes : List Node) : Agenda (List Value) := do
  room 1
  all scope [] nodes

def failure? : List Value → Option Value
  | [value] => if value.isError then some value else none
  | _ => none

/-- Evaluates the pairs of a map, from the entries written so far. A key is checked before its
value is evaluated. -/
def entries (scope : ScopeId) : Entries → List (Node × Node) → Agenda Value
  | written, [] => do
    room 3
    make (.hash written)
  | written, (keyNode, valueNode) :: pairs => do
    let keyValue ← ask 1 scope keyNode
    if keyValue.isError then return keyValue
    match keyValue.key? with
    | none => return .error (.unhashable keyValue.tag)
    | some key =>
      let value ← ask 1 scope valueNode
      if value.isError then return value
      entries scope (Table.write key value written) pairs

def meaning (name : String) : Option Value → Value
  | some value => value
  | none =>
    match Builtin.ofName? name with
    | some builtin => .builtin builtin
    | none => .error (.unbound name)

def resolve (scope : ScopeId) (name : String) : Agenda Value := do
  room 2
  return meaning name (← look scope name)

def assignAll (scope : ScopeId) : List Name → List Value → Agenda Unit
  | name :: names, value :: values => do
    assign scope name.text value
    assignAll scope names values
  | _, _ => pure ()

/-- Calls a value. The body of a function runs in a new scope inside the one where the function was
made, and a return inside it ends here. -/
def call (callee : Value) (arguments : List Value) : Agenda Value :=
  match callee with
  | .function _ parameters body home =>
    if arguments.length ≠ parameters.length then do
      room 2
      return .error (.arity arguments.length parameters.length)
    else do
      room 3
      let scope ← enclose home
      assignAll scope parameters arguments
      let value ← ask 1 scope body
      return value.unwrap
  | .builtin builtin => builtin.apply arguments
  | value => do
    room 2
    return .error (.notCallable value.tag)

def operatorCalls (left right : Value) : Nat :=
  if left.tag = .integer ∧ right.tag = .integer then 3 else 2

def indexCalls (container position : Value) : Nat :=
  if container.tag = .hash ∧ position.key?.isSome then 3 else 2

/-- What a node does, in terms of what the nodes inside it give. -/
def step (scope : ScopeId) : Node → Agenda Value
  | .program statements => do
    room 1
    return (← sequence scope .null statements).unwrap
  | .block statements _ => do
    room 1
    sequence scope .null statements
  | .statement expression _ => ask 0 scope expression
  | .returning node _ => do
    let value ← ask 0 scope node
    if value.isError then return value
    make (.returned value)
  | .binding name node _ => do
    let value ← ask 0 scope node
    if value.isError then return value
    assign scope name.text value
    return .null
  | .integer value _ => do
    room 1
    return .integer value
  | .string value _ => do
    room 1
    return .string value
  | .boolean value _ => do
    room 1
    return .boolean value
  | .array elements _ => do
    let values ← expressions scope elements
    match failure? values with
    | some error => return error
    | none => make (.array values)
  | .map pairs _ => do
    room 1
    entries scope [] pairs
  | .function parameters body _ => do
    room 1
    make (.function parameters body scope)
  | .identifier name => resolve scope name.text
  | .unary operator node _ => do
    let operand ← ask 0 scope node
    if operand.isError then return operand
    room 2
    return .ofExcept (operator.onOne operand)
  | .binary leftNode operator rightNode _ => do
    let left ← ask 0 scope leftNode
    if left.isError then return left
    let right ← ask 0 scope rightNode
    if right.isError then return right
    room (operatorCalls left right)
    return .ofExcept (operator.onBoth left right)
  | .conditional condition consequence alternative _ => do
    let value ← ask 0 scope condition
    if value.isError then return value
    if value.truthy then ask 0 scope consequence
    else
      match alternative with
      | some node => ask 0 scope node
      | none => return .null
  | .call calleeNode argumentNodes _ => do
    let callee ← ask 0 scope calleeNode
    if callee.isError then return callee
    let arguments ← expressions scope argumentNodes
    match failure? arguments with
    | some error => return error
    | none => call callee arguments
  | .index containerNode positionNode _ => do
    let container ← ask 0 scope containerNode
    if container.isError then return container
    let position ← ask 0 scope positionNode
    if position.isError then return position
    room (indexCalls container position)
    return .ofExcept (container.indexed position)
  | .foreign leaf => do
    room 1
    stop (.unknownNode leaf)

/-- Evaluates a node in a scope on a stack with `frames` left, one of which it takes itself. -/
def evaluate (frames : Nat) : ScopeId → Node → Eval Value :=
  stacked (fun _ _ => throw .exhausted) (fun recur left scope node => (step scope node).run recur left)
    frames frames

def apply (frames : Nat) (callee : Value) (arguments : List Value) : Eval Value :=
  (call callee arguments).run evaluate frames

end Marmoset.Evaluation
