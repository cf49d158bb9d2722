import Marmoset.Proofs.Evaluation.Growth
import Marmoset.Proofs.Evaluation.Invariant

/-!
Evaluation leaves no loose ends. On a well-formed machine every scope lies inside an older one, and what
is bound captures scopes that are there and carries identities that were given out. Evaluation in a scope
of such a machine leaves such a machine, and a value of it.
-/

namespace Marmoset

open Machine

namespace Value

def Housed (machine : Machine) (value : Value) : Prop :=
  (∀ home ∈ value.home?, home < machine.scopes.size) ∧
    ∀ identity ∈ value.identity?, identity < machine.next

instance (machine : Machine) (value : Value) : Decidable (value.Housed machine) :=
  inferInstanceAs (Decidable (_ ∧ _))

def Within (machine : Machine) (value : Value) : Prop := value.MadeOf (Housed machine)

instance (machine : Machine) (value : Value) : Decidable (value.Within machine) :=
  inferInstanceAs (Decidable (∀ _ ∈ _, _))

variable {machine after : Machine} {value : Value}

theorem Within.grown (within : value.Within machine) (grows : machine.Grows after) :
    value.Within after := by
  refine within.mono fun part housed => ⟨?_, ?_⟩
  · exact fun home captured => Nat.lt_of_lt_of_le (housed.1 home captured) grows.scopes
  · exact fun identity own => Nat.lt_of_lt_of_le (housed.2 identity own) grows.next

theorem within_integer (value : Int) : (integer value).Within machine :=
  madeOf_iff.mpr ⟨⟨nofun, nofun⟩, nofun⟩

theorem within_computed (computed : value.Computed) : value.Within machine := by
  refine madeOf_computed computed ?_
  cases computed <;> exact ⟨nofun, nofun⟩

end Value

namespace Machine

/-- A store without loose ends: the scope outside another one is older, and what is bound captures
scopes that are there. -/
structure WellFormed (machine : Machine) : Prop where
  older : ∀ (id : ScopeId) (scope : Scope) (outer : ScopeId), machine.scopes[id]? = some scope →
    scope.outer = some outer → outer < id
  within : ∀ (id : ScopeId) (scope : Scope), machine.scopes[id]? = some scope →
    ∀ binding ∈ scope.bindings, binding.2.Within machine

variable {machine : Machine}

theorem empty_wellFormed : empty.WellFormed := by
  constructor
  · intro id scope outer there
    cases there
  · intro id scope there
    cases there

theorem WellFormed.of_scopes {after : Machine} (formed : machine.WellFormed)
    (grows : machine.Grows after) (same : after.scopes = machine.scopes) : after.WellFormed := by
  constructor
  · intro id scope outer there
    rw [same] at there
    exact formed.older id scope outer there
  · intro id scope there binding bound
    rw [same] at there
    exact (formed.within id scope there binding bound).grown grows

theorem WellFormed.bind (formed : machine.WellFormed) (own : ScopeId) (name : String) {value : Value}
    (within : value.Within machine) : (machine.bind own name value).WellFormed := by
  have grows := machine.perform_grows (.bound own name value)
  constructor
  · intro id scope outer there outside
    rcases scope_of_bind there with ⟨before, there, same, -⟩
    exact formed.older id before outer there (same ▸ outside)
  · intro id scope there binding bound
    rcases scope_of_bind there with ⟨before, there, -, bindings⟩
    rcases bindings binding bound with rfl | old
    · exact within.grown grows
    · exact (formed.within id before there binding old).grown grows

theorem WellFormed.addScope (formed : machine.WellFormed) {outer : Option ScopeId}
    (inside : ∀ id ∈ outer, id < machine.scopes.size) : (machine.addScope outer).2.WellFormed := by
  have grows := machine.perform_grows (.added outer)
  constructor
  · intro id scope other there outside
    rcases scope_of_addScope there with ⟨rfl, rfl⟩ | old
    · exact inside other outside
    · exact formed.older id scope other old outside
  · intro id scope there binding bound
    rcases scope_of_addScope there with ⟨-, rfl⟩ | old
    · cases bound
    · exact (formed.within id scope old binding bound).grown grows

theorem WellFormed.lookup (formed : machine.WellFormed) {scope : ScopeId} {name : String} {value : Value}
    (found : machine.lookup scope name = some value) : value.Within machine := by
  rcases search_bound found with ⟨id, scope, there, bound⟩
  exact formed.within id scope there _ bound

end Machine

namespace Evaluation

def storing : Invariant where
  World := Machine
  perform := Machine.perform
  machine world machine := machine = world ∧ machine.WellFormed
  scope world own := own < world.scopes.size
  value world value := value.Within world
  node world own _ := own < world.scopes.size
  body _ := True
  writes _ _ _ := True
  quiet _ := True
  marked := True
  reaches _ := True
  granted _ := True
  permits _ _ := True

theorem storing_closed : storing.Closed where
  value_kept act within := Value.Within.grown within (Machine.perform_grows _ act)
  node_kept act inside := Nat.lt_of_lt_of_le inside (Machine.perform_grows _ act).scopes
  writes_kept _ := id
  node_scope := id
  operand inside _ := ⟨inside, trivial⟩
  tail inside _ := ⟨inside, fun _ => trivial⟩
  program inside _ := inside
  function _ := trivial
  binding _ := trivial
  integer _ := Value.within_integer _
  returning _ _ := trivial
  foreign _ := trivial
  contents := Value.MadeOf.inside
  captured within := ⟨trivial, within.own.1 _ rfl⟩
  computed := Value.within_computed
  counted _ _ := Value.within_integer _
  found name held _ value found := by
    rcases held with ⟨rfl, formed⟩
    exact formed.lookup found
  added {_ machine home} held inside := by
    rcases held with ⟨rfl, formed⟩
    have size : machine.scopes.size < (machine.addScope (some home)).2.scopes.size := by
      rw [addScope, Array.size_push]
      exact Nat.lt_succ_self _
    exact ⟨⟨trivial, rfl, formed.addScope fun id same => Option.some.inj same ▸ inside⟩,
      fun _ => trivial, fun _ => size⟩
  bound held _ within := by
    rcases held with ⟨rfl, formed⟩
    exact ⟨trivial, rfl, formed.bind _ _ within⟩
  made {_ machine content} held contents := by
    rcases held with ⟨rfl, formed⟩
    have grows := machine.perform_grows (.made (content.carrying machine.next))
    refine ⟨⟨trivial, rfl, formed.of_scopes grows rfl⟩, fun _ => ?_⟩
    have own : ∀ identity ∈ (content.carrying machine.next).identity?,
        identity < (machine.perform (.made (content.carrying machine.next))).next := by
      intro identity same
      cases content <;> cases same <;> exact Nat.lt_succ_self _
    refine Value.madeOf_iff.mpr ⟨⟨fun home captured => ?_, own⟩, fun inner member => ?_⟩
    · exact Nat.lt_of_lt_of_le (contents.captured _ home captured) grows.scopes
    · exact Value.Within.grown (contents.inside _ inner member) grows
  printed text held := by
    rcases held with ⟨rfl, formed⟩
    exact ⟨trivial, rfl, formed.of_scopes (Machine.perform_grows _ (.printed text)) rfl⟩
  entered _ held _ := ⟨trivial, held⟩
  left held _ := ⟨trivial, held⟩

/-- Evaluation in a scope of a well-formed machine leaves a well-formed one. -/
theorem evaluate_wellFormed (frames : Nat) {scope : ScopeId} {machine : Machine}
    (inside : scope < machine.scopes.size) (formed : machine.WellFormed) (node : Node) :
    ((evaluate frames scope node).outcome machine).2.WellFormed := by
  rw [evaluate_outcome]
  exact (storing_closed.evaluation machine frames scope node inside ⟨rfl, formed⟩ fun _ _ => trivial).machine.2

theorem apply_wellFormed (frames : Nat) {callee : Value} {arguments : List Value} {machine : Machine}
    (within : ∀ value ∈ callee :: arguments, value.Within machine) (formed : machine.WellFormed) :
    ((apply frames callee arguments).outcome machine).2.WellFormed := by
  rw [apply_outcome]
  have good : ∀ value ∈ callee :: arguments, value.Within machine ∧ True :=
    fun value member => ⟨within value member, trivial⟩
  exact (storing_closed.call machine frames good ⟨rfl, formed⟩ fun _ _ => trivial).machine.2

end Evaluation

end Marmoset
