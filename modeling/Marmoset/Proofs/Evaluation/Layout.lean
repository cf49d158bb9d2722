import Marmoset.Proofs.Evaluation.Lockstep
import Marmoset.Proofs.Value.Bare

/-!
Evaluation does not look at places. Evaluating a tree without its places, on a machine without them,
gives what evaluating the tree itself gives, again without places.
-/

namespace Marmoset

namespace Bindings

def bare (bindings : Bindings) : Bindings := bindings.map fun binding => (binding.1, binding.2.bare)

end Bindings

def Scope.bare (scope : Scope) : Scope := { scope with bindings := scope.bindings.bare }

namespace Machine

def bare (machine : Machine) : Machine := { machine with scopes := machine.scopes.map Scope.bare }

theorem getElem?_bare (machine : Machine) (id : ScopeId) :
    machine.bare.scopes[id]? = machine.scopes[id]?.map Scope.bare :=
  Array.getElem?_map

theorem bind_bare (machine : Machine) (scope : ScopeId) (name : String) (value : Value) :
    (machine.bind scope name value).bare = machine.bare.bind scope name value.bare := by
  have scopes : (machine.bind scope name value).bare.scopes =
      (machine.bare.bind scope name value.bare).scopes := by
    -- Only the scope that is bound in changes, on both sides, so the scopes are compared one by one.
    apply Array.ext_getElem?
    intro id
    simp only [bare, bind, Array.getElem?_map, Array.getElem?_modify]
    split
    · cases machine.scopes[id]? with
      | none => rfl
      | some own =>
          simp only [Option.map_some, Scope.bare, Bindings.bare, Table.write_map]
    · rfl
  rw [Machine.mk.injEq]
  exact ⟨scopes, rfl, rfl⟩

theorem addScope_bare (machine : Machine) (outer : Option ScopeId) :
    machine.bare.addScope outer = ((machine.addScope outer).1, (machine.addScope outer).2.bare) := by
  simp [addScope, bare, Scope.bare, Bindings.bare]

theorem search_bare (machine : Machine) (name : String) (steps : Nat) (id : ScopeId) :
    machine.bare.search name steps id = (machine.search name steps id).map Value.bare := by
  induction steps generalizing id with
  | zero => rfl
  | succ steps ih =>
      rw [search, search, getElem?_bare]
      cases machine.scopes[id]? with
      | none => rfl
      | some scope =>
          simp only [Option.map_some, Scope.bare, Bindings.bare, Table.find?_map]
          cases Table.find? name scope.bindings with
          | some value => rfl
          | none =>
              cases scope.outer with
              | none => rfl
              | some outer => exact ih outer

end Machine

namespace Evaluation

open Simulation

/-- The other side does the same without places. -/
def stripping : Simulation where
  World := Unit
  perform _ _ := ()
  machine _ machine other := other = machine.bare
  scope _ own other := own = other
  value _ value other := other = value.bare
  node _ own other node away := own = other ∧ away = node.bare
  function parameters own names away := names = parameters.map Name.bare ∧ away = own.bare
  writes _ own other _ := own = other
  quiet _ := True
  marked := True
  reaches _ := True
  granted _ := True
  permits _ _ _ := True

theorem stripping_closed : stripping.Closed where
  value_kept _ := id
  node_kept _ := id
  writes_kept _ := id
  node_scope alike := alike.1
  node_twin := by
    rintro _ own other node away ⟨rfl, rfl⟩
    refine Node.Twin.bare (Node.twin_self (fun _ _ => ⟨⟨rfl, rfl⟩, trivial⟩)
      (fun _ _ => ⟨⟨rfl, rfl⟩, fun _ => trivial⟩) ?_ ?_)
    · exact fun _ _ _ _ => ⟨rfl, rfl⟩
    · exact fun _ _ _ _ => ⟨rfl, rfl⟩
  binding alike := alike.1
  integer _ := rfl
  returning _ _ := trivial
  foreign _ := trivial
  value_twin := by
    rintro _ value other rfl
    exact value.twin_bare
  named := by
    rintro parameters own names away ⟨rfl, rfl⟩
    exact (names_bare parameters).symm
  identical := by
    rintro _ first second first' second' rfl rfl
    exact Value.identical_bare first second
  computed computed := by
    cases computed <;> rfl
  counted _ _ := rfl
  inspect := by
    rintro _ value other rfl
    exact value.inspect_bare
  inspectFrames := by
    rintro _ value other rfl
    exact value.inspectFrames_bare
  found := by
    rintro _ machine other own away name rfl rfl
    have same : machine.bare.lookup own name = (machine.lookup own name).map Value.bare :=
      machine.search_bare name (own + 1) own
    rw [same]
    cases machine.lookup own name with
    | none => exact .none
    | some value => exact .some rfl
  added := by
    rintro _ machine other home away rfl rfl
    refine ⟨⟨trivial, congrArg Prod.snd (machine.addScope_bare (some home))⟩, fun name => ?_, fun same => ?_⟩
    · exact congrArg Prod.fst (machine.addScope_bare (some home)).symm
    · exact ⟨congrArg Prod.fst (machine.addScope_bare (some home)).symm, same.2⟩
  bound := by
    rintro _ machine other own away name value value' rfl rfl rfl
    exact ⟨trivial, (machine.bind_bare own name value).symm⟩
  made := by
    rintro _ machine other content content' rfl contents
    refine ⟨⟨trivial, rfl⟩, fun _ => ?_⟩
    cases contents with
    | array inside =>
        rw [Value.eq_map_bare inside, ← Value.bareAll_eq_map]
        rfl
    | hash written =>
        rw [Value.eq_bareEntries written.keyed]
        rfl
    | function alike captured =>
        rcases alike with ⟨rfl, rfl⟩
        rcases captured with rfl
        rfl
    | returned inside =>
        rcases inside with rfl
        rfl
  printed := by
    rintro _ machine other text rfl
    exact ⟨trivial, rfl⟩
  entered _ held _ := ⟨trivial, held⟩
  left held _ := ⟨trivial, held⟩

theorem eq_map_of_ends {result other : Except Stop Value}
    (ends : stripping.Ends (stripping.Gives () True) result other) : other = result.map Value.bare := by
  cases ends with
  | exhausted => rfl
  | unknownNode reached => rfl
  | ok gives =>
      cases gives with
      | error fault => rfl
      | value alike => exact congrArg Except.ok alike
      | returned _ loud alike => exact absurd trivial loud

/-- Evaluating the shape of a tree is evaluating the tree, but for places. -/
theorem evaluate_bare (frames : Nat) (scope : ScopeId) (node : Node) (machine : Machine) :
    (evaluate frames scope node.bare).outcome machine.bare =
      (((evaluate frames scope node).outcome machine).1.map Value.bare,
        ((evaluate frames scope node).outcome machine).2.bare) := by
  have tells : stripping.Tells (fun later => stripping.Gives later True) () machine machine.bare
      (chronicle frames scope node machine) (chronicle frames scope node.bare machine.bare) :=
    stripping_closed.running frames ⟨rfl, rfl⟩ rfl fun _ _ => trivial
  rw [evaluate_outcome, evaluate_outcome]
  exact Prod.ext (eq_map_of_ends tells.ends) tells.course.ends

end Evaluation

end Marmoset
