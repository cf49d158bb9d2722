import Mathlib.Data.List.Forall2
import Marmoset.Proofs.Tree.Anatomy
import Marmoset.Tree.Canonical
import Marmoset.Tree.Shape

/-!
Nodes of one kind, of children that stand for each other: a node and itself, or a node and its shape.
-/

namespace Marmoset.Node

/-- Two nodes of one kind, apart from their places. Children stand for each other by the way in which the
node uses them: for their value, to pass it on, as a statement of a program, or as the body of a
function with its parameters. -/
inductive Twin (operand tail statement : Node → Node → Prop)
    (function : List Name → Node → List Name → Node → Prop) : Node → Node → Prop
  | identifier {name other : Name} (named : name.text = other.text) :
      Twin operand tail statement function (.identifier name) (.identifier other)
  | integer (value : Int) {line place : Int} :
      Twin operand tail statement function (.integer value line) (.integer value place)
  | boolean (value : Bool) {line place : Int} :
      Twin operand tail statement function (.boolean value line) (.boolean value place)
  | string (value : String) {line place : Int} :
      Twin operand tail statement function (.string value line) (.string value place)
  | array {elements others : List Node} {line place : Int} (inside : List.Forall₂ operand elements others) :
      Twin operand tail statement function (.array elements line) (.array others place)
  | map {pairs others : List (Node × Node)} {line place : Int}
      (inside : List.Forall₂ (fun pair other => operand pair.1 other.1 ∧ operand pair.2 other.2) pairs others) :
      Twin operand tail statement function (.map pairs line) (.map others place)
  | unary (operator : Operator) {inner other : Node} {line place : Int} (inside : operand inner other) :
      Twin operand tail statement function (.unary operator inner line) (.unary operator other place)
  | binary {left right left' right' : Node} (operator : Operator) {line place : Int}
      (first : operand left left') (second : operand right right') :
      Twin operand tail statement function (.binary left operator right line)
        (.binary left' operator right' place)
  | conditional {condition consequence condition' consequence' : Node} {alternative other : Option Node}
      {line place : Int} (tested : operand condition condition') (chosen : tail consequence consequence')
      (rejected : Option.Rel tail alternative other) :
      Twin operand tail statement function (.conditional condition consequence alternative line)
        (.conditional condition' consequence' other place)
  | function {parameters names : List Name} {own other : Node} {line place : Int}
      (alike : function parameters own names other) :
      Twin operand tail statement function (.function parameters own line) (.function names other place)
  | call {callee other : Node} {arguments others : List Node} {line place : Int} (called : operand callee other)
      (inside : List.Forall₂ operand arguments others) :
      Twin operand tail statement function (.call callee arguments line) (.call other others place)
  | index {container position container' position' : Node} {line place : Int}
      (first : operand container container') (second : operand position position') :
      Twin operand tail statement function (.index container position line)
        (.index container' position' place)
  | binding {name other : Name} {inner away : Node} {line place : Int} (named : name.text = other.text)
      (inside : operand inner away) :
      Twin operand tail statement function (.binding name inner line) (.binding other away place)
  | returning {inner other : Node} {line place : Int} (inside : operand inner other) :
      Twin operand tail statement function (.returning inner line) (.returning other place)
  | statement {inner other : Node} {line place : Int} (inside : tail inner other) :
      Twin operand tail statement function (.statement inner line) (.statement other place)
  | block {statements others : List Node} {line place : Int} (inside : List.Forall₂ tail statements others) :
      Twin operand tail statement function (.block statements line) (.block others place)
  | program {statements others : List Node} (inside : List.Forall₂ statement statements others) :
      Twin operand tail statement function (.program statements) (.program others)
  | foreign (leaf : Foreign) : Twin operand tail statement function (.foreign leaf) (.foreign leaf)

variable {operand tail statement : Node → Node → Prop}
  {function : List Name → Node → List Name → Node → Prop} {node : Node}

theorem twin_self (operands : ∀ child ∈ node.operands, operand child child)
    (tails : ∀ child ∈ node.tails, tail child child)
    (statements : ∀ inside, node = .program inside → ∀ child ∈ inside, statement child child)
    (functions : ∀ parameters own line, node = .function parameters own line →
      function parameters own parameters own) :
    node.Twin operand tail statement function node := by
  cases node with
  | identifier name => exact .identifier rfl
  | integer value line => exact .integer value
  | boolean value line => exact .boolean value
  | string value line => exact .string value
  | array elements line => exact .array (List.forall₂_same.mpr operands)
  | map pairs line =>
      refine .map (List.forall₂_same.mpr fun pair member => ?_)
      exact ⟨operands _ (List.mem_flatMap_of_mem member List.mem_cons_self),
        operands _ (List.mem_flatMap_of_mem member (List.mem_cons_of_mem _ List.mem_cons_self))⟩
  | unary operator inner line => exact .unary operator (operands _ List.mem_cons_self)
  | binary left operator right line =>
      exact .binary operator (operands _ List.mem_cons_self)
        (operands _ (List.mem_cons_of_mem _ List.mem_cons_self))
  | conditional condition consequence alternative line =>
      refine .conditional (operands _ List.mem_cons_self) (tails _ List.mem_cons_self) ?_
      cases alternative with
      | none => exact .none
      | some other => exact .some (tails _ (List.mem_cons_of_mem _ List.mem_cons_self))
  | function parameters own line => exact .function (functions _ _ _ rfl)
  | call callee arguments line =>
      rcases List.forall_mem_cons.mp operands with ⟨called, inside⟩
      exact .call called (List.forall₂_same.mpr inside)
  | index container position line =>
      exact .index (operands _ List.mem_cons_self)
        (operands _ (List.mem_cons_of_mem _ List.mem_cons_self))
  | binding name inner line => exact .binding rfl (operands _ List.mem_cons_self)
  | returning inner line => exact .returning (operands _ List.mem_cons_self)
  | statement inner line => exact .statement (tails _ List.mem_cons_self)
  | block inside line => exact .block (List.forall₂_same.mpr tails)
  | program inside => exact .program (List.forall₂_same.mpr (statements _ rfl))
  | foreign leaf => exact .foreign leaf

theorem bareAll_eq_map (nodes : List Node) : bareAll nodes = nodes.map bare := by
  induction nodes with
  | nil => rfl
  | cons node nodes ih => rw [bareAll, ih, List.map_cons]

theorem barePairs_eq_map (pairs : List (Node × Node)) :
    barePairs pairs = pairs.map fun pair => (pair.1.bare, pair.2.bare) := by
  induction pairs with
  | nil => rfl
  | cons pair pairs ih => rw [barePairs, ih, List.map_cons]

theorem Twin.bare {other : Node} (twin : node.Twin (fun inner away => operand inner away.bare)
      (fun inner away => tail inner away.bare) (fun inner away => statement inner away.bare)
      (fun parameters own names away => function parameters own (names.map Name.bare) away.bare) other) :
    node.Twin operand tail statement function other.bare := by
  cases twin with
  | identifier named => exact .identifier named
  | integer value => exact .integer value
  | boolean value => exact .boolean value
  | string value => exact .string value
  | array inside =>
      rw [Node.bare, bareAll_eq_map]
      exact .array (List.forall₂_map_right_iff.mpr inside)
  | map inside =>
      rw [Node.bare, barePairs_eq_map]
      exact .map (List.forall₂_map_right_iff.mpr inside)
  | unary operator inside => exact .unary operator inside
  | binary operator first second => exact .binary operator first second
  | conditional tested chosen rejected =>
      cases rejected with
      | none => exact .conditional tested chosen .none
      | some other => exact .conditional tested chosen (.some other)
  | function alike => exact .function alike
  | call called inside =>
      rw [Node.bare, bareAll_eq_map]
      exact .call called (List.forall₂_map_right_iff.mpr inside)
  | index first second => exact .index first second
  | binding named inside => exact .binding named inside
  | returning inside => exact .returning inside
  | statement inside => exact .statement inside
  | block inside =>
      rw [Node.bare, bareAll_eq_map]
      exact .block (List.forall₂_map_right_iff.mpr inside)
  | program inside =>
      rw [Node.bare, bareAll_eq_map]
      exact .program (List.forall₂_map_right_iff.mpr inside)
  | foreign leaf => exact .foreign leaf

mutual

theorem textFrames_bare : (node : Node) → node.bare.textFrames = node.textFrames
  | identifier _ | integer _ _ | boolean _ _ | string _ _ | foreign _ => rfl
  | array elements _ => by rw [bare, textFrames, textFrames, textFramesAll_bare elements]
  | map pairs _ => by rw [bare, textFrames, textFrames, textFramesPairs_bare pairs]
  | binary left _ right _ => by
      rw [bare, textFrames, textFrames, textFrames_bare left, textFrames_bare right]
  | index container position _ => by
      rw [bare, textFrames, textFrames, textFrames_bare container, textFrames_bare position]
  | conditional condition consequence none _ => by
      rw [bare, textFrames, textFrames, textFrames_bare condition, textFrames_bare consequence]
  | conditional condition consequence (some alternative) _ => by
      rw [bare, textFrames, textFrames, textFrames_bare condition, textFrames_bare consequence,
        textFrames_bare alternative]
  | call callee arguments _ => by
      rw [bare, textFrames, textFrames, textFrames_bare callee, textFramesAll_bare arguments]
  | unary _ inner _ | function _ inner _ | binding _ inner _ | returning inner _ | statement inner _ => by
      rw [bare, textFrames, textFrames, textFrames_bare inner]
  | block statements _ | program statements => by
      rw [bare, textFrames, textFrames, textFramesAll_bare statements]
termination_by structural node => node

theorem textFramesAll_bare : (nodes : List Node) → textFramesAll (bareAll nodes) = textFramesAll nodes
  | [] => rfl
  | node :: nodes => by
      rw [bareAll, textFramesAll, textFramesAll, textFrames_bare node, textFramesAll_bare nodes]
termination_by structural nodes => nodes

theorem textFramesPairs_bare : (pairs : List (Node × Node)) →
    textFramesPairs (barePairs pairs) = textFramesPairs pairs
  | [] => rfl
  | (key, value) :: pairs => by
      rw [barePairs, textFramesPairs, textFramesPairs, textFrames_bare key, textFrames_bare value,
        textFramesPairs_bare pairs]
termination_by structural pairs => pairs

end

end Marmoset.Node
