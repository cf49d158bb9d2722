import Marmoset.Tree

/-!
The anatomy of a tree. A node uses the values of its operands, passes on the value of one of its tails,
or keeps nodes for itself, as a function keeps its body. A rule that looks at one node and its children
holds of a tree when it holds of each node of the tree.
-/

namespace Marmoset.Node

/-- The nodes whose values a node uses. -/
@[simp] def operands : Node → List Node
  | array elements _ => elements
  | map pairs _ => pairs.flatMap fun pair => [pair.1, pair.2]
  | unary _ operand _ => [operand]
  | binary left _ right _ => [left, right]
  | conditional condition _ _ _ => [condition]
  | call callee arguments _ => callee :: arguments
  | index container position _ => [container, position]
  | binding _ value _ => [value]
  | returning value _ => [value]
  | _ => []

/-- The nodes whose values a node passes on as they are. -/
@[simp] def tails : Node → List Node
  | conditional _ consequence alternative _ => consequence :: alternative.toList
  | statement expression _ => [expression]
  | block statements _ => statements
  | _ => []

/-- The nodes whose return markers end in the node. -/
@[simp] def enclosed : Node → List Node
  | function _ body _ => [body]
  | program statements => statements
  | _ => []

def children (node : Node) : List Node := node.operands ++ node.tails ++ node.enclosed

theorem operand_child {child node : Node} (member : child ∈ node.operands) : child ∈ node.children :=
  List.mem_append_left _ (List.mem_append_left _ member)

theorem tail_child {child node : Node} (member : child ∈ node.tails) : child ∈ node.children :=
  List.mem_append_left _ (List.mem_append_right _ member)

theorem enclosed_child {child node : Node} (member : child ∈ node.enclosed) : child ∈ node.children :=
  List.mem_append_right _ member

mutual

def nodes : Node → List Node
  | array elements line => array elements line :: nodesAll elements
  | map pairs line => map pairs line :: nodesPairs pairs
  | unary operator operand line => unary operator operand line :: nodes operand
  | binary left operator right line =>
    binary left operator right line :: (nodes left ++ nodes right)
  | conditional condition consequence none line =>
    conditional condition consequence none line :: (nodes condition ++ nodes consequence)
  | conditional condition consequence (some alternative) line =>
    conditional condition consequence (some alternative) line ::
      (nodes condition ++ (nodes consequence ++ nodes alternative))
  | function parameters body line => function parameters body line :: nodes body
  | call callee arguments line => call callee arguments line :: (nodes callee ++ nodesAll arguments)
  | index container position line =>
    index container position line :: (nodes container ++ nodes position)
  | binding name value line => binding name value line :: nodes value
  | returning value line => returning value line :: nodes value
  | statement expression line => statement expression line :: nodes expression
  | block statements line => block statements line :: nodesAll statements
  | program statements => program statements :: nodesAll statements
  | leaf => [leaf]
termination_by structural node => node

def nodesAll : List Node → List Node
  | [] => []
  | node :: others => nodes node ++ nodesAll others
termination_by structural nodes => nodes

def nodesPairs : List (Node × Node) → List Node
  | [] => []
  | (key, value) :: pairs => nodes key ++ (nodes value ++ nodesPairs pairs)
termination_by structural pairs => pairs

end

theorem mem_nodesAll {inner : Node} {others : List Node} :
    inner ∈ nodesAll others ↔ ∃ node ∈ others, inner ∈ node.nodes := by
  induction others with
  | nil => simp [nodesAll]
  | cons node others ih => simp [nodesAll, ih]

theorem mem_nodesPairs {inner : Node} {pairs : List (Node × Node)} :
    inner ∈ nodesPairs pairs ↔ ∃ pair ∈ pairs, inner ∈ pair.1.nodes ∨ inner ∈ pair.2.nodes := by
  induction pairs with
  | nil => simp [nodesPairs]
  | cons pair pairs ih => simp [nodesPairs, ih, or_assoc]

theorem mem_nodes {inner node : Node} :
    inner ∈ node.nodes ↔ inner = node ∨ ∃ child ∈ node.children, inner ∈ child.nodes := by
  cases node with
  | map pairs line => simp [nodes, children, mem_nodesPairs]; grind
  | conditional condition consequence alternative line =>
      cases alternative <;> simp [nodes, children]
  | _ => simp [nodes, children, mem_nodesAll]

theorem nodes_self (node : Node) : node ∈ node.nodes :=
  mem_nodes.mpr (.inl rfl)

theorem nodes_child {child node : Node} (member : child ∈ node.children) : child.nodes ⊆ node.nodes :=
  fun _ inside => mem_nodes.mpr (.inr ⟨child, member, inside⟩)

theorem sizeOf_child {child node : Node} (member : child ∈ node.children) :
    sizeOf child < sizeOf node := by
  cases node with
  | map pairs line =>
      simp only [children, operands, tails, enclosed, List.append_nil, List.mem_flatMap] at member
      rcases member with ⟨⟨key, value⟩, inside, own⟩
      have shorter := List.sizeOf_lt_of_mem inside
      simp at own shorter ⊢
      rcases own with rfl | rfl <;> omega
  | conditional condition consequence alternative line =>
      cases alternative <;> simp [children] at member ⊢ <;> grind
  | array others line | block others line | program others | call callee others line =>
      have shorter (inside : child ∈ others) : sizeOf child < sizeOf others :=
        List.sizeOf_lt_of_mem inside
      simp [children] at member ⊢
      grind
  | identifier | integer | boolean | string | foreign =>
      simp [children] at member
  | _ =>
      simp [children] at member ⊢
      grind

theorem children_induction {claim : Node → Prop}
    (step : ∀ node : Node, (∀ child ∈ node.children, claim child) → claim node) (node : Node) :
    claim node :=
  step node fun child _ => children_induction step child
termination_by sizeOf node
decreasing_by exact sizeOf_child ‹_›

def every (rule : Node → Bool) (node : Node) : Bool := node.nodes.all rule

theorem every_iff {rule : Node → Bool} {node : Node} : node.every rule = true ↔
    rule node = true ∧ ∀ child ∈ node.children, child.every rule = true := by
  simp only [every, List.all_eq_true]
  constructor
  · intro holds
    exact ⟨holds node node.nodes_self, fun child member inner deep =>
      holds inner (nodes_child member deep)⟩
  · rintro ⟨own, inside⟩ inner deep
    rcases mem_nodes.mp deep with rfl | ⟨child, member, deep⟩
    · exact own
    · exact inside child member inner deep

theorem every_own {rule : Node → Bool} {node : Node} (holds : node.every rule = true) :
    rule node = true :=
  (every_iff.mp holds).1

theorem every_child {rule : Node → Bool} {node child : Node} (holds : node.every rule = true)
    (member : child ∈ node.children) : child.every rule = true :=
  (every_iff.mp holds).2 child member

theorem every_imp {strong weak : Node → Bool} (implied : ∀ node, strong node = true → weak node = true)
    {node : Node} (holds : node.every strong = true) : node.every weak = true := by
  rw [every, List.all_eq_true] at holds ⊢
  exact fun inner inside => implied inner (holds inner inside)

end Marmoset.Node
