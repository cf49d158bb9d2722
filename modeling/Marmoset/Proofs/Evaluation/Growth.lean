import Marmoset.Proofs.Evaluation.Chronicle
import Marmoset.Proofs.Table

/-!
A machine only grows: no act takes a scope away, or lets an identity be given twice.
-/

namespace Marmoset

namespace Machine

theorem scope_of_bind {machine : Machine} {own id : ScopeId} {name : String} {value : Value}
    {scope : Scope} (there : (machine.bind own name value).scopes[id]? = some scope) :
    ∃ before, machine.scopes[id]? = some before ∧ scope.outer = before.outer ∧
      ∀ binding ∈ scope.bindings, binding = (name, value) ∨ binding ∈ before.bindings := by
  rw [bind, Array.getElem?_modify] at there
  split at there
  · rcases Option.map_eq_some_iff.mp there with ⟨before, was, rfl⟩
    exact ⟨before, was, rfl, fun binding member => Table.mem_write member⟩
  · exact ⟨scope, there, rfl, fun binding member => .inr member⟩

theorem scope_of_addScope {machine : Machine} {outer : Option ScopeId} {id : ScopeId} {scope : Scope}
    (there : (machine.addScope outer).2.scopes[id]? = some scope) :
    (id = machine.scopes.size ∧ scope = ⟨[], outer⟩) ∨ machine.scopes[id]? = some scope := by
  rw [addScope, Array.getElem?_push] at there
  split at there
  · next new => exact .inl ⟨new, (Option.some.inj there).symm⟩
  · exact .inr there

theorem search_bound {machine : Machine} {name : String} {steps : Nat} {own : ScopeId}
    {value : Value} (found : machine.search name steps own = some value) :
    ∃ (id : ScopeId) (scope : Scope), machine.scopes[id]? = some scope ∧
      (name, value) ∈ scope.bindings := by
  induction steps generalizing own with
  | zero => cases found
  | succ steps ih =>
      rw [search] at found
      split at found
      · cases found
      · next scope there =>
          split at found
          · next bound =>
              cases found
              exact ⟨own, scope, there, Table.mem_of_find? bound⟩
          · split at found
            · cases found
            · exact ih found

structure Grows (before after : Machine) : Prop where
  scopes : before.scopes.size ≤ after.scopes.size
  next : before.next ≤ after.next

variable {before middle after : Machine}

theorem Grows.refl (machine : Machine) : machine.Grows machine := ⟨Nat.le_refl _, Nat.le_refl _⟩

theorem Grows.trans (first : before.Grows middle) (second : middle.Grows after) : before.Grows after :=
  ⟨Nat.le_trans first.scopes second.scopes, Nat.le_trans first.next second.next⟩

theorem perform_grows (machine : Machine) (act : Act) : machine.Grows (machine.perform act) := by
  cases act with
  | added outer =>
      refine ⟨?_, Nat.le_refl _⟩
      rw [perform, addScope, Array.size_push]
      exact Nat.le_succ _
  | bound scope name value =>
      refine ⟨Nat.le_of_eq ?_, Nat.le_refl _⟩
      rw [perform, bind, Array.size_modify]
  | made value => exact ⟨Nat.le_refl _, Nat.le_succ _⟩
  | printed | taken | entered | left => exact ⟨Nat.le_refl _, Nat.le_refl _⟩

theorem replay_grows (machine : Machine) (acts : List Act) : machine.Grows (machine.replay acts) := by
  induction acts generalizing machine with
  | nil => exact .refl machine
  | cons act acts ih => exact (machine.perform_grows act).trans (ih (machine.perform act))

end Machine

namespace Evaluation

theorem evaluate_grows (frames : Nat) (scope : ScopeId) (node : Node) (machine : Machine) :
    machine.Grows ((evaluate frames scope node).outcome machine).2 := by
  rw [evaluate_outcome]
  exact machine.replay_grows _

theorem apply_grows (frames : Nat) (callee : Value) (arguments : List Value) (machine : Machine) :
    machine.Grows ((apply frames callee arguments).outcome machine).2 := by
  rw [apply_outcome]
  exact machine.replay_grows _

end Evaluation

end Marmoset
