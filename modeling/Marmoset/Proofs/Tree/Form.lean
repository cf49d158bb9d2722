import Marmoset.Proofs.Tree.Anatomy
import Marmoset.Proofs.Tree.Spelling

/-!
Well-formed trees: each node has the children that its form asks for, applies an operator that stands
there, and holds what a token can spell.
-/

namespace Marmoset.Node

def isExpression : Node → Bool
  | identifier _ | integer _ _ | boolean _ _ | string _ _ | array _ _ | map _ _ | unary _ _ _
  | binary _ _ _ _ | conditional _ _ _ _ | function _ _ _ | call _ _ _ | index _ _ _ => true
  | _ => false

def isStatement : Node → Bool
  | binding _ _ _ | returning _ _ | statement _ _ => true
  | _ => false

def isBlock : Node → Bool
  | block _ _ => true
  | _ => false

/-- The children of a node are of the forms that belong there, and none is missing but an alternative
that was not written. -/
def placed : Node → Bool
  | foreign _ => false
  | program statements => statements.all isStatement
  | block statements _ => statements.all isStatement
  | function _ body _ => body.isBlock
  | conditional condition consequence alternative _ =>
    condition.isExpression && consequence.isBlock && alternative.all isBlock
  | node => node.children.all isExpression

/-- Two operators stand before an operand, and eight between two. -/
def operated : Node → Bool
  | unary operator _ _ => operator = .not || operator = .sub
  | binary _ operator _ _ => operator ≠ .not
  | _ => true

def spelled : Node → Bool
  | identifier name => isIdentifier name.text
  | integer value _ => 0 ≤ value && value ≤ Grammar.integerMax
  | string value _ => '"' ∉ value.toList
  | function parameters _ _ => parameters.all fun parameter => isIdentifier parameter.text
  | binding name _ _ => isIdentifier name.text
  | _ => true

def formed (node : Node) : Bool := node.placed && node.operated && node.spelled

def wellFormed (node : Node) : Bool := node.every formed

def shaped (node : Node) : Bool := node.every placed

theorem shaped_of_wellFormed {node : Node} (formed : node.wellFormed = true) : node.shaped = true := by
  refine every_imp (fun inner own => ?_) formed
  simp only [Node.formed, Bool.and_eq_true] at own
  exact own.1.1

theorem operand_expression {node child : Node} (own : node.placed = true)
    (member : child ∈ node.operands) : child.isExpression = true := by
  cases node with
  | conditional condition consequence alternative line =>
      simp only [operands, List.mem_singleton] at member
      simp only [placed, Bool.and_eq_true] at own
      rw [member]
      exact own.1.1
  | identifier | integer | boolean | string | function | statement | block | program | foreign =>
      cases member
  | _ => exact List.all_eq_true.mp own child (operand_child member)

theorem wellFormed_of {node : Node} (placed : node.placed = true) (operated : node.operated = true)
    (spelled : node.spelled = true) (inside : ∀ child ∈ node.children, child.wellFormed = true) :
    node.wellFormed = true := by
  refine every_iff.mpr ⟨?_, inside⟩
  simp only [formed, placed, operated, spelled, Bool.and_self]

theorem wellFormed_plain {node : Node} (plain : node.placed = node.children.all isExpression)
    (operated : node.operated = true) (spelled : node.spelled = true)
    (inside : ∀ child ∈ node.children, child.isExpression = true ∧ child.wellFormed = true) :
    node.wellFormed = true := by
  refine wellFormed_of ?_ operated spelled fun child member => (inside child member).2
  rw [plain, List.all_eq_true]
  exact fun child member => (inside child member).1

end Marmoset.Node
