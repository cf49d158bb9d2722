import Marmoset.Proofs.Evaluation.Invariant

/-!
What evaluation writes. A node binds names in its own scope only, and only the names of the bindings
that stand in it outside functions; a call runs in a scope of its own, so it leaves every scope that
was there before as it was. Nothing depends on how the evaluation ends.
-/

namespace Marmoset

namespace Node

mutual

/-- The names that a node binds outside the functions in it. -/
def lets : Node → List String
  | identifier _ | integer _ _ | boolean _ _ | string _ _ | foreign _ => []
  | function _ _ _ => []
  | array elements _ => letsAll elements
  | map pairs _ => letsPairs pairs
  | unary _ operand _ => lets operand
  | binary left _ right _ => lets left ++ lets right
  | conditional condition consequence none _ => lets condition ++ lets consequence
  | conditional condition consequence (some alternative) _ =>
    lets condition ++ (lets consequence ++ lets alternative)
  | call callee arguments _ => lets callee ++ letsAll arguments
  | index container position _ => lets container ++ lets position
  | binding name value _ => name.text :: lets value
  | returning value _ => lets value
  | statement expression _ => lets expression
  | block statements _ => letsAll statements
  | program statements => letsAll statements
termination_by structural node => node

def letsAll : List Node → List String
  | [] => []
  | node :: nodes => lets node ++ letsAll nodes
termination_by structural nodes => nodes

def letsPairs : List (Node × Node) → List String
  | [] => []
  | (key, value) :: pairs => lets key ++ (lets value ++ letsPairs pairs)
termination_by structural pairs => pairs

end

end Node

/-- A scope that was written to: it lies where it lay, no name is lost, and only the names given may
have another value. -/
structure Scope.Rebound (names : List String) (before after : Scope) : Prop where
  outer : after.outer = before.outer
  bound : ∀ name, (Table.find? name before.bindings).isSome → (Table.find? name after.bindings).isSome
  others : ∀ name, name ∉ names → Table.find? name after.bindings = Table.find? name before.bindings

theorem Scope.Rebound.refl (names : List String) (scope : Scope) : scope.Rebound names scope :=
  ⟨rfl, fun _ bound => bound, fun _ _ => rfl⟩

theorem Scope.Rebound.trans {names : List String} {before middle after : Scope}
    (first : before.Rebound names middle) (second : middle.Rebound names after) :
    before.Rebound names after := by
  refine ⟨second.outer.trans first.outer, ?_, ?_⟩
  · intro name bound
    exact second.bound name (first.bound name bound)
  · intro name outside
    rw [second.others name outside, first.others name outside]

namespace Machine

def Retains (before after : Machine) : Prop :=
  ∀ (id : ScopeId) (scope : Scope), before.scopes[id]? = some scope → after.scopes[id]? = some scope

instance : Std.Refl Retains := ⟨fun _ _ _ there => there⟩

instance : Trans Retains Retains Retains :=
  ⟨fun first second id scope there => second id scope (first id scope there)⟩

/-- Every scope is there still; all but one are as they were, and that one has at most the names given
bound anew. -/
structure Frame (own : ScopeId) (names : List String) (before after : Machine) : Prop where
  others : ∀ (id : ScopeId) (scope : Scope), id ≠ own →
    before.scopes[id]? = some scope → after.scopes[id]? = some scope
  written : ∀ scope, before.scopes[own]? = some scope →
    ∃ rebound, after.scopes[own]? = some rebound ∧ scope.Rebound names rebound

variable {own : ScopeId} {names : List String} {before middle after : Machine}

theorem Retains.frame (retains : before.Retains after) : Frame own names before after := by
  constructor
  · intro id scope _ there
    exact retains id scope there
  · intro scope there
    exact ⟨scope, retains own scope there, .refl names scope⟩

theorem Frame.trans (first : Frame own names before middle) (second : Frame own names middle after) :
    Frame own names before after := by
  constructor
  · intro id scope apart there
    exact second.others id scope apart (first.others id scope apart there)
  · intro scope there
    rcases first.written scope there with ⟨rebound, found, earlier⟩
    rcases second.written rebound found with ⟨last, there, later⟩
    exact ⟨last, there, earlier.trans later⟩

instance : Std.Refl (Frame own names) :=
  ⟨fun machine => (Std.Refl.refl machine : machine.Retains machine).frame⟩

instance : Trans (Frame own names) (Frame own names) (Frame own names) := ⟨Frame.trans⟩

theorem bind_frame (machine : Machine) (name : String) (value : Value) (member : name ∈ names) :
    Frame own names machine (machine.bind own name value) := by
  constructor
  · intro id scope apart there
    rw [bind, Array.getElem?_modify, if_neg (Ne.symm apart)]
    exact there
  · intro scope there
    refine ⟨{ scope with bindings := Table.write name value scope.bindings }, ?_, rfl, ?_, ?_⟩
    · rw [bind, Array.getElem?_modify, if_pos rfl, there]
      rfl
    · intro other bound
      rw [Table.find?_write]
      split
      · rfl
      · exact bound
    · intro other outside
      rw [Table.find?_write, if_neg]
      intro same
      exact outside (same ▸ member)

theorem addScope_retains (machine : Machine) (outer : Option ScopeId) :
    machine.Retains (machine.addScope outer).2 := by
  intro id scope there
  rw [addScope, Array.getElem?_push, if_neg]
  · exact there
  · intro new
    have inside := (Array.getElem?_eq_some_iff.mp there).1
    omega

theorem Frame.bind (frame : Frame own names before after) {scope : ScopeId} {name : String} (value : Value)
    (allowed : (scope = own ∧ name ∈ names) ∨ before.scopes.size ≤ scope) :
    Frame own names before (after.bind scope name value) := by
  rcases allowed with ⟨rfl, member⟩ | new
  · exact frame.trans (after.bind_frame name value member)
  · have apart {id : ScopeId} {old : Scope} (there : before.scopes[id]? = some old) : scope ≠ id := by
      have inside := (Array.getElem?_eq_some_iff.mp there).1
      exact Nat.ne_of_gt (Nat.lt_of_lt_of_le inside new)
    constructor
    · intro id old other there
      rw [Machine.bind, Array.getElem?_modify, if_neg (apart there)]
      exact frame.others id old other there
    · intro old there
      rw [Machine.bind, Array.getElem?_modify, if_neg (apart there)]
      exact frame.written old there

theorem Frame.retains (frame : Frame before.scopes.size names before after) : before.Retains after := by
  intro id scope there
  exact frame.others id scope (Nat.ne_of_lt (Array.getElem?_eq_some_iff.mp there).1) there

end Machine

namespace Node

theorem lets_child {child node : Node} (member : child ∈ node.operands ++ node.tails) :
    child.lets ⊆ node.lets := by
  have inside {nodes : List Node} (member : child ∈ nodes) : child.lets ⊆ letsAll nodes := by
    induction nodes with
    | nil => cases member
    | cons node nodes ih =>
        rw [letsAll]
        rcases List.mem_cons.mp member with rfl | later
        · exact List.subset_append_left _ _
        · exact List.Subset.trans (ih later) (List.subset_append_right _ _)
  have paired {pairs : List (Node × Node)} (member : child ∈ pairs.flatMap fun pair => [pair.1, pair.2]) :
      child.lets ⊆ letsPairs pairs := by
    induction pairs with
    | nil => cases member
    | cons pair pairs ih =>
        rcases pair with ⟨key, value⟩
        simp only [List.flatMap_cons, List.cons_append, List.nil_append, List.mem_cons] at member
        rw [letsPairs]
        rcases member with rfl | rfl | later
        · exact List.subset_append_left _ _
        · exact List.Subset.trans (List.subset_append_left _ _) (List.subset_append_right _ _)
        · exact List.Subset.trans (List.Subset.trans (ih later) (List.subset_append_right _ _))
            (List.subset_append_right _ _)
  cases node with
  | array elements line => exact inside (by simpa using member)
  | map pairs line => exact paired (by simpa using member)
  | call callee arguments line =>
      simp only [operands, tails, List.append_nil, List.mem_cons] at member
      rw [lets]
      rcases member with rfl | member
      · exact List.subset_append_left _ _
      · exact List.Subset.trans (inside member) (List.subset_append_right _ _)
  | block statements line => exact inside (by simpa using member)
  | conditional condition consequence alternative line =>
      cases alternative <;> simp [operands, tails] at member <;> grind [lets]
  | identifier | integer | boolean | string | foreign | program | function => simp at member
  | _ =>
      simp [operands, tails] at member
      grind [lets]

theorem lets_statement {child : Node} {statements : List Node} (member : child ∈ statements) :
    child.lets ⊆ (program statements).lets := by
  have included : child.lets ⊆ (block statements 0).lets := lets_child (by simpa using member)
  exact included

end Node

namespace Evaluation

open Machine

def framing (base : Machine) (own : ScopeId) (names : List String) : Invariant where
  World := Unit
  perform _ _ := ()
  machine _ machine := Frame own names base machine ∧ base.scopes.size ≤ machine.scopes.size
  scope _ _ := True
  value _ _ := True
  node _ scope node := (scope = own ∧ node.lets ⊆ names) ∨ base.scopes.size ≤ scope
  body _ := True
  writes _ scope name := (scope = own ∧ name ∈ names) ∨ base.scopes.size ≤ scope
  quiet _ := True
  marked := True
  reaches _ := True
  granted _ := True
  permits _ _ := True

theorem framing_closed (base : Machine) (own : ScopeId) (names : List String) :
    (framing base own names).Closed where
  value_kept _ := id
  node_kept _ := id
  writes_kept _ := id
  node_scope _ := trivial
  operand asked member :=
    ⟨asked.imp_left fun inside => ⟨inside.1,
      List.Subset.trans (Node.lets_child (List.mem_append_left _ member)) inside.2⟩, trivial⟩
  tail asked member :=
    ⟨asked.imp_left fun inside => ⟨inside.1,
      List.Subset.trans (Node.lets_child (List.mem_append_right _ member)) inside.2⟩, fun _ => trivial⟩
  program asked member :=
    asked.imp_left fun inside => ⟨inside.1, List.Subset.trans (Node.lets_statement member) inside.2⟩
  function _ := trivial
  binding asked := asked.imp_left fun inside => ⟨inside.1, inside.2 List.mem_cons_self⟩
  integer _ := trivial
  returning _ _ := trivial
  foreign _ := trivial
  contents _ _ _ := trivial
  captured _ := ⟨trivial, trivial⟩
  computed _ := trivial
  counted _ _ := trivial
  found _ _ _ _ _ := trivial
  added {_ machine home} held _ := by
    refine ⟨⟨trivial, held.1.trans (machine.addScope_retains _).frame, ?_⟩,
      fun name => .inr held.2, fun _ => .inr held.2⟩
    simp only [Machine.perform, Machine.addScope, Array.size_push]
    exact Nat.le_succ_of_le held.2
  bound {_ machine scope name value} held writes _ := by
    refine ⟨trivial, held.1.bind value writes, ?_⟩
    simp only [Machine.perform, Machine.bind, Array.size_modify]
    exact held.2
  made held _ := ⟨⟨trivial, ⟨held.1.others, held.1.written⟩, held.2⟩, fun _ => trivial⟩
  printed _ held := ⟨trivial, ⟨held.1.others, held.1.written⟩, held.2⟩
  entered _ held _ := ⟨trivial, held⟩
  left held _ := ⟨trivial, held⟩

/-- Evaluation writes to its own scope only, and there only the names of bindings that stand outside
functions; a call leaves every scope that was there before as it was. -/
theorem evaluation_frame (frames : Nat) (machine : Machine) :
    (∀ own node, Frame own node.lets machine ((evaluate frames own node).outcome machine).2) ∧
      ∀ callee arguments, machine.Retains ((apply frames callee arguments).outcome machine).2 := by
  constructor
  · intro own node
    have begun : Frame own node.lets machine machine := Std.Refl.refl machine
    have tells := (framing_closed machine own node.lets).evaluation () frames own node
      (.inl ⟨rfl, List.Subset.refl _⟩) ⟨begun, Nat.le_refl _⟩ fun _ _ => trivial
    rw [evaluate_outcome]
    exact tells.machine.1
  · intro callee arguments
    have begun : Frame machine.scopes.size [] machine machine := Std.Refl.refl machine
    have good : ∀ value ∈ callee :: arguments, True ∧ True := fun _ _ => ⟨trivial, trivial⟩
    have tells := (framing_closed machine machine.scopes.size []).call () frames good
      ⟨begun, Nat.le_refl _⟩ fun _ _ => trivial
    rw [apply_outcome]
    exact tells.machine.1.retains

end Evaluation

end Marmoset
