import Marmoset.Proofs.Evaluation.Growth
import Marmoset.Proofs.Evaluation.Invariant

/-!
Rules on trees that evaluation cannot break. A rule says which nodes may be evaluated, which of them leave
no return marker, and which bodies functions may have. From that follows which values are good, and
evaluation among good values gives good ones and keeps them on the machine.
-/

namespace Marmoset

namespace Machine

/-- The scopes that can be reached from a scope: outward, and through the functions that are bound
there. -/
inductive Sees (machine : Machine) (start : ScopeId) : ScopeId → Prop
  | own : Sees machine start start
  | outward {id outer : ScopeId} {scope : Scope} (seen : Sees machine start id)
      (there : machine.scopes[id]? = some scope) (outside : scope.outer = some outer) :
      Sees machine start outer
  | captured {id home : ScopeId} {scope : Scope} {binding : String × Value} {part : Value}
      (seen : Sees machine start id) (there : machine.scopes[id]? = some scope)
      (bound : binding ∈ scope.bindings) (inside : part ∈ binding.2.parts)
      (captured : home ∈ part.home?) : Sees machine start home

def SeesOnly (machine : Machine) (start : ScopeId) (allowed : Value → Prop) : Prop :=
  ∀ (id : ScopeId) (scope : Scope), machine.Sees start id → machine.scopes[id]? = some scope →
    ∀ binding ∈ scope.bindings, ∀ part ∈ binding.2.parts, allowed part

theorem SeesOnly.mono {machine : Machine} {start : ScopeId} {strong weak : Value → Prop}
    (only : machine.SeesOnly start strong) (implied : ∀ part, strong part → weak part) :
    machine.SeesOnly start weak :=
  fun id scope seen there binding bound part inside =>
    implied part (only id scope seen there binding bound part inside)

end Machine

/-- Rules on trees. What is evaluated inside a node of the rule is of the rule too, and a node whose
value is used leaves no return marker. -/
structure NodeRule where
  node : Node → Prop
  /-- The node leaves no return marker. -/
  quiet : Node → Prop
  /-- The bodies that functions may have. -/
  body : Node → Prop
  /-- Return markers may stand inside other values. -/
  marked : Prop
  called : ∀ {inner}, body inner → node inner
  operand : ∀ {outer inner}, node outer → inner ∈ outer.operands → node inner ∧ quiet inner
  tail : ∀ {outer inner}, node outer → inner ∈ outer.tails →
    node inner ∧ (quiet outer → quiet inner)
  program : ∀ {statements inner}, node (.program statements) → inner ∈ statements → node inner
  function : ∀ {parameters inner line}, node (.function parameters inner line) → body inner
  returning : ∀ {inner line}, node (.returning inner line) → quiet (.returning inner line) → marked
  foreign : ∀ {leaf}, ¬ node (.foreign leaf)

def NodeRule.part (rule : NodeRule) : Value → Prop
  | .function _ _ body _ => rule.body body
  | .returned _ _ => rule.marked
  | _ => True

/-- The scopes that a run may come to: some that were there, and every new one. -/
structure Region where
  inside : ScopeId → Prop
  size : Nat
  new : ∀ {id}, size ≤ id → inside id

variable (rule : NodeRule) (region : Region)

def Fits (part : Value) : Prop := rule.part part ∧ ∀ home ∈ part.home?, region.inside home

def Good (value : Value) : Prop := value.MadeOf (Fits rule region)

/-- From the scopes of the region only such scopes and good values are reached. -/
structure Kept (machine : Machine) : Prop where
  size : region.size ≤ machine.scopes.size
  outer : ∀ {id : ScopeId} {scope : Scope}, region.inside id → machine.scopes[id]? = some scope →
    ∀ outer ∈ scope.outer, region.inside outer
  bindings : ∀ {id : ScopeId} {scope : Scope}, region.inside id → machine.scopes[id]? = some scope →
    ∀ binding ∈ scope.bindings, Good rule region binding.2

def NodeRule.keeping : Invariant where
  World := Unit
  perform _ _ := ()
  machine _ := Kept rule region
  scope _ := region.inside
  value _ := Good rule region
  node _ own node := region.inside own ∧ rule.node node
  body := rule.body
  writes _ _ _ := True
  quiet := rule.quiet
  marked := rule.marked
  reaches _ := False
  granted _ := True
  permits _ act := ∀ frames own node, act = .entered frames own node → region.inside own ∧ rule.node node

variable {rule region} {machine : Machine}

theorem Kept.bind (kept : Kept rule region machine) (own : ScopeId) (name : String) {value : Value}
    (good : Good rule region value) : Kept rule region (machine.bind own name value) := by
  constructor
  · simpa [Machine.bind] using kept.size
  · intro id scope inside there
    rcases Machine.scope_of_bind there with ⟨before, there, outer, -⟩
    rw [outer]
    exact kept.outer inside there
  · intro id scope inside there binding member
    rcases Machine.scope_of_bind there with ⟨before, there, -, bindings⟩
    rcases bindings binding member with rfl | old
    · exact good
    · exact kept.bindings inside there binding old

theorem Kept.addScope (kept : Kept rule region machine) {home : ScopeId}
    (inside : region.inside home) : Kept rule region (machine.addScope (some home)).2 := by
  constructor
  · have size := kept.size
    simp only [Machine.addScope, Array.size_push]
    omega
  · intro id scope within there outer outside
    rcases Machine.scope_of_addScope there with ⟨-, rfl⟩ | there
    · cases outside
      exact inside
    · exact kept.outer within there outer outside
  · intro id scope within there binding member
    rcases Machine.scope_of_addScope there with ⟨-, rfl⟩ | there
    · cases member
    · exact kept.bindings within there binding member

theorem Kept.search (kept : Kept rule region machine) {name : String} {steps : Nat} {own : ScopeId}
    (inside : region.inside own) {value : Value} (found : machine.search name steps own = some value) :
    Good rule region value := by
  induction steps generalizing own with
  | zero => cases found
  | succ steps ih =>
      rw [Machine.search] at found
      split at found
      · cases found
      · next scope there =>
          split at found
          · next bound =>
              cases found
              exact kept.bindings inside there _ (Table.mem_of_find? bound)
          · split at found
            · cases found
            · next outer outside => exact ih (kept.outer inside there outer outside) found

theorem good_computed {value : Value} (computed : value.Computed) : Good rule region value := by
  refine Value.madeOf_computed computed ?_
  cases computed <;> exact ⟨trivial, nofun⟩

theorem good_integer (value : Int) : Good rule region (.integer value) :=
  Value.madeOf_iff.mpr ⟨⟨trivial, nofun⟩, nofun⟩

theorem NodeRule.keeping_closed (rule : NodeRule) (region : Region) : (rule.keeping region).Closed where
  value_kept _ := id
  node_kept _ := id
  writes_kept _ := id
  node_scope asked := asked.1
  operand asked member := ⟨⟨asked.1, (rule.operand asked.2 member).1⟩, (rule.operand asked.2 member).2⟩
  tail asked member := ⟨⟨asked.1, (rule.tail asked.2 member).1⟩, (rule.tail asked.2 member).2⟩
  program asked member := ⟨asked.1, rule.program asked.2 member⟩
  function asked := rule.function asked.2
  binding _ := trivial
  integer _ := good_integer _
  returning asked silent := rule.returning asked.2 silent
  foreign asked := rule.foreign asked.2
  contents := Value.MadeOf.inside
  captured good := ⟨good.own.1, good.own.2 _ rfl⟩
  computed := good_computed
  counted _ _ := good_integer _
  found _ held inside _ found := held.search inside found
  added held inside :=
    ⟨⟨nofun, held.addScope inside⟩, fun _ => trivial, fun bodies => ⟨region.new held.size, rule.called bodies⟩⟩
  bound held _ good := ⟨nofun, held.bind _ _ good⟩
  made {_ machine content} held contents := by
    refine ⟨⟨nofun, held.size, held.outer, held.bindings⟩, fun marked => ?_⟩
    have allowed : rule.part (content.carrying machine.next) := by
      cases content with
      | function parameters body home => exact contents.bodies machine.next body rfl
      | returned value => exact marked rfl
      | _ => trivial
    exact Value.madeOf_iff.mpr ⟨⟨allowed, contents.captured _⟩, contents.inside _⟩
  printed _ held := ⟨nofun, held.size, held.outer, held.bindings⟩
  entered _ held asked := by
    refine ⟨?_, held⟩
    rintro frames own node ⟨⟩
    exact asked
  left held _ := ⟨nofun, held⟩

theorem NodeRule.good_of_gives {value : Value} {quiet : Prop}
    (gives : (rule.keeping region).Gives () quiet value) (silent : quiet) : Good rule region value := by
  cases gives with
  | error fault => exact Value.madeOf_iff.mpr ⟨⟨trivial, nofun⟩, nofun⟩
  | value good => exact good
  | returned _ loud good => exact absurd silent loud

/-- Evaluation keeps the rule, and meets no leaf that is no form of the language. -/
theorem Kept.evaluate (kept : Kept rule region machine) (frames : Nat) {scope : ScopeId} {node : Node}
    (inside : region.inside scope) (allowed : rule.node node) :
    Kept rule region ((Evaluation.evaluate frames scope node).outcome machine).2 ∧
      ∀ leaf, ((Evaluation.evaluate frames scope node).outcome machine).1 ≠ .error (.unknownNode leaf) := by
  have tells := (rule.keeping_closed region).evaluation () frames scope node ⟨inside, allowed⟩ kept fun _ _ => trivial
  rw [Evaluation.evaluate_outcome]
  exact ⟨tells.machine, tells.reaches⟩

def Region.of (machine : Machine) (start : ScopeId) : Region where
  inside id := machine.Sees start id ∨ machine.scopes.size ≤ id
  size := machine.scopes.size
  new := .inr

theorem Machine.SeesOnly.kept {machine : Machine} {start : ScopeId}
    (only : machine.SeesOnly start rule.part) : Kept rule (Region.of machine start) machine := by
  have seen {id : ScopeId} {scope : Scope} (inside : (Region.of machine start).inside id)
      (there : machine.scopes[id]? = some scope) : machine.Sees start id := by
    rcases inside with seen | beyond
    · exact seen
    · have within := (Array.getElem?_eq_some_iff.mp there).1
      omega
  constructor
  · exact Nat.le_refl _
  · intro id scope inside there outer outside
    exact .inl (.outward (seen inside there) there outside)
  · intro id scope inside there binding bound part member
    have sees := seen inside there
    exact ⟨only id scope sees there binding bound part member,
      fun home captured => .inl (.captured sees there bound member captured)⟩

theorem Kept.sees {machine : Machine} (kept : Kept rule region machine) {start id : ScopeId}
    (inside : region.inside start) (seen : machine.Sees start id) : region.inside id := by
  induction seen with
  | own => exact inside
  | outward seen there outside ih => exact kept.outer ih there _ outside
  | captured seen there bound member captured ih =>
      exact (kept.bindings ih there _ bound _ member).2 _ captured

theorem Kept.seesOnly {machine : Machine} (kept : Kept rule region machine) {start : ScopeId}
    (inside : region.inside start) : machine.SeesOnly start rule.part := by
  intro id scope seen there binding bound part member
  exact (kept.bindings (kept.sees inside seen) there binding bound part member).1

end Marmoset
