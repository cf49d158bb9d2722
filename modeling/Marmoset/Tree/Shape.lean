import Marmoset.Tree

/-!
The shape of a tree: the tree without its places. Two trees have the same shape when they differ in
lines and columns only.
-/

namespace Marmoset

def Name.bare (name : Name) : Name := ⟨name.text, 0, 0⟩

namespace Node

mutual

/-- The tree with every place set to zero. -/
def bare : Node → Node
  | identifier name => identifier name.bare
  | integer value _ => integer value 0
  | boolean value _ => boolean value 0
  | string value _ => string value 0
  | array elements _ => array (bareAll elements) 0
  | map pairs _ => map (barePairs pairs) 0
  | unary operator operand _ => unary operator (bare operand) 0
  | binary left operator right _ => binary (bare left) operator (bare right) 0
  | conditional condition consequence none _ =>
    conditional (bare condition) (bare consequence) none 0
  | conditional condition consequence (some alternative) _ =>
    conditional (bare condition) (bare consequence) (some (bare alternative)) 0
  | function parameters body _ => function (parameters.map Name.bare) (bare body) 0
  | call callee arguments _ => call (bare callee) (bareAll arguments) 0
  | index container position _ => index (bare container) (bare position) 0
  | binding name value _ => binding name.bare (bare value) 0
  | returning value _ => returning (bare value) 0
  | statement expression _ => statement (bare expression) 0
  | block statements _ => block (bareAll statements) 0
  | program statements => program (bareAll statements)
  | foreign leaf => foreign leaf
termination_by structural node => node

def bareAll : List Node → List Node
  | [] => []
  | node :: nodes => bare node :: bareAll nodes
termination_by structural nodes => nodes

def barePairs : List (Node × Node) → List (Node × Node)
  | [] => []
  | (key, value) :: pairs => (bare key, bare value) :: barePairs pairs
termination_by structural pairs => pairs

end

mutual

def alike : Node → Node → Bool
  | identifier a, identifier b => a.text = b.text
  | integer a _, integer b _ => a = b
  | boolean a _, boolean b _ => a = b
  | string a _, string b _ => a = b
  | array a _, array b _ => alikeAll a b
  | map a _, map b _ => alikePairs a b
  | unary o a _, unary p b _ => o = p && alike a b
  | binary a o b _, binary c p d _ => alike a c && o = p && alike b d
  | conditional a b none _, conditional c d none _ => alike a c && alike b d
  | conditional a b (some e) _, conditional c d (some f) _ => alike a c && alike b d && alike e f
  | function ps a _, function qs b _ => ps.map Name.text = qs.map Name.text && alike a b
  | call a as _, call b bs _ => alike a b && alikeAll as bs
  | index a b _, index c d _ => alike a c && alike b d
  | binding n a _, binding m b _ => n.text = m.text && alike a b
  | returning a _, returning b _ => alike a b
  | statement a _, statement b _ => alike a b
  | block a _, block b _ => alikeAll a b
  | program a, program b => alikeAll a b
  | foreign a, foreign b => a = b
  | _, _ => false
termination_by structural node => node

def alikeAll : List Node → List Node → Bool
  | [], [] => true
  | a :: as, b :: bs => alike a b && alikeAll as bs
  | _, _ => false
termination_by structural nodes => nodes

def alikePairs : List (Node × Node) → List (Node × Node) → Bool
  | [], [] => true
  | (a, b) :: as, (c, d) :: bs => alike a c && alike b d && alikePairs as bs
  | _, _ => false
termination_by structural pairs => pairs

end

end Node

end Marmoset
