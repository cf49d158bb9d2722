import Marmoset.Proofs.Evaluation.History

/-!
What a name means. From every scope a way leads outward, each scope on it older than the one before, so the
way has an end. A name that is looked up there means what was last bound to it in the first scope of the way
in which it was ever bound; what is bound elsewhere does not matter. This holds at every moment of every
history, also in the middle of an evaluation.
-/

namespace Marmoset

open Machine Evaluation

namespace Machine

variable {machine : Machine} {id : ScopeId} {chain : List ScopeId}

/-- The way outward from a scope: the scope itself, the one that it lies inside, and so on up to one that
lies inside none. -/
inductive Outward (machine : Machine) : ScopeId → List ScopeId → Prop
  | top {id : ScopeId} {scope : Scope} (there : machine.scopes[id]? = some scope)
      (free : scope.outer = none) : Outward machine id [id]
  | inside {id outer : ScopeId} {scope : Scope} {chain : List ScopeId}
      (there : machine.scopes[id]? = some scope) (lies : scope.outer = some outer)
      (further : Outward machine outer chain) : Outward machine id (id :: chain)

theorem Outward.unique {other : List ScopeId} (outward : machine.Outward id chain)
    (same : machine.Outward id other) : other = chain := by
  induction outward generalizing other with
  | top there free =>
      cases same with
      | top => rfl
      | inside there' lies => simp_all
  | inside there lies further ih =>
      cases same with
      | top there' free => simp_all
      | inside there' lies' further' =>
          cases there.symm.trans there'
          cases lies.symm.trans lies'
          rw [ih further']

theorem WellFormed.outward (formed : machine.WellFormed) (inside : id < machine.scopes.size) :
    ∃ chain, machine.Outward id chain := by
  induction id using Nat.strongRecOn with
  | ind id ih =>
      have there : machine.scopes[id]? = some machine.scopes[id] := Array.getElem?_eq_getElem inside
      cases lies : machine.scopes[id].outer with
      | none => exact ⟨_, .top there lies⟩
      | some outer =>
          have older := formed.older id _ outer there lies
          rcases ih outer older (Nat.lt_trans older inside) with ⟨chain, further⟩
          exact ⟨_, .inside there lies further⟩

theorem WellFormed.descends (formed : machine.WellFormed) (outward : machine.Outward id chain) :
    chain.Pairwise (· > ·) ∧ (∀ other ∈ chain, other ≤ id) ∧ chain.length ≤ id + 1 := by
  induction outward with
  | top => simp
  | @inside id outer scope chain there lies further ih =>
      have older := formed.older _ _ _ there lies
      rcases ih with ⟨sorted, below, short⟩
      have under (other : ScopeId) (member : other ∈ chain) : other < id :=
        Nat.lt_of_le_of_lt (below other member) older
      refine ⟨List.pairwise_cons.mpr ⟨under, sorted⟩, ?_, Nat.succ_le_succ (Nat.le_trans short older)⟩
      exact List.forall_mem_cons.mpr ⟨Nat.le_refl _, fun other member => Nat.le_of_lt (under other member)⟩

theorem Outward.search (outward : machine.Outward id chain) (name : String) {steps : Nat}
    (enough : chain.length ≤ steps) :
    machine.search name steps id = chain.findSome? fun id => Table.find? name (machine.bindings id) := by
  induction outward generalizing steps with
  | @top id scope there free =>
      cases steps with
      | zero => cases enough
      | succ steps =>
          simp only [Machine.search, there, free, List.findSome?_cons, List.findSome?_nil, bindings]
          cases Table.find? name scope.bindings <;> rfl
  | @inside id outer scope chain there lies further ih =>
      cases steps with
      | zero => cases enough
      | succ steps =>
          have rest := ih (Nat.le_of_succ_le_succ enough)
          simp only [Machine.search, there, lies, List.findSome?_cons, bindings]
          cases Table.find? name scope.bindings with
          | some value => rfl
          | none => exact rest

theorem bindings_addScope (machine : Machine) (outer : Option ScopeId) (id : ScopeId) :
    (machine.addScope outer).2.bindings id = machine.bindings id := by
  simp only [bindings, addScope, Array.getElem?_push]
  by_cases new : id = machine.scopes.size <;> simp [new]

theorem bindings_bind (machine : Machine) {own : ScopeId} (inside : own < machine.scopes.size)
    (name : String) (value : Value) (id : ScopeId) : (machine.bind own name value).bindings id =
      if own = id then Table.write name value (machine.bindings id) else machine.bindings id := by
  simp only [bindings, bind, Array.getElem?_modify]
  by_cases same : own = id
  · subst same
    simp [Array.getElem?_eq_getElem inside]
  · simp [same]

end Machine

def Act.binds (scope : ScopeId) (name : String) : Act → Option Value
  | bound own other value => if own = scope ∧ other = name then some value else none
  | _ => none

def lastBound (history : List Act) (scope : ScopeId) (name : String) : Option Value :=
  history.reverse.findSome? (Act.binds scope name)

section LastBound

variable {history : List Act} {scope : ScopeId} {name : String} {value : Value}

theorem Act.binds_eq_some {act : Act} :
    act.binds scope name = some value ↔ act = bound scope name value := by
  cases act <;> simp [binds, and_assoc]

theorem Act.binds_eq_none {act : Act} :
    act.binds scope name = none ↔ ∀ value, act ≠ bound scope name value := by
  simp only [Option.eq_none_iff_forall_ne_some, ne_eq, binds_eq_some]

theorem lastBound_concat (history : List Act) (act : Act) : lastBound (history ++ [act]) scope name =
    (act.binds scope name).or (lastBound history scope name) := by
  rw [lastBound, List.reverse_concat, List.findSome?_cons]
  cases act.binds scope name <;> rfl

theorem lastBound_eq_none :
    lastBound history scope name = none ↔ ∀ value, .bound scope name value ∉ history := by
  rw [lastBound, List.findSome?_eq_none_iff]
  simp only [List.mem_reverse, Act.binds_eq_none]
  exact ⟨fun apart value member => apart _ member value rfl,
    fun never act member value same => never value (same ▸ member)⟩

theorem lastBound_eq_some : lastBound history scope name = some value ↔
    ∃ earlier later, history = earlier ++ .bound scope name value :: later ∧
      ∀ other, .bound scope name other ∉ later := by
  rw [lastBound, List.findSome?_eq_some_iff]
  constructor
  · rintro ⟨behind, act, before, split, binds, others⟩
    cases Act.binds_eq_some.mp binds
    refine ⟨before.reverse, behind.reverse, ?_, fun other member => ?_⟩
    · rw [← history.reverse_reverse, split]
      simp
    · exact Act.binds_eq_none.mp (others _ (List.mem_reverse.mp member)) other rfl
  · rintro ⟨earlier, later, rfl, never⟩
    refine ⟨later.reverse, _, earlier.reverse, by simp, Act.binds_eq_some.mpr rfl, ?_⟩
    intro act member
    refine Act.binds_eq_none.mpr fun other same => ?_
    exact never other (same ▸ List.mem_reverse.mp member)

def Act.onto (scopes : List ScopeId) : Act → Bool
  | bound scope _ _ => scope ∈ scopes
  | _ => false

theorem lastBound_filter {scopes : List ScopeId} (member : scope ∈ scopes) (history : List Act) :
    lastBound (history.filter (Act.onto scopes)) scope name = lastBound history scope name := by
  induction history using List.reverseRecOn with
  | nil => rfl
  | append_singleton history act ih =>
      rw [List.filter_append, lastBound_concat, ← ih]
      cases kept : act.onto scopes with
      | true => rw [List.filter_cons_of_pos kept, List.filter_nil, lastBound_concat]
      | false =>
          have apart : act.binds scope name = none := by
            refine Act.binds_eq_none.mpr fun value same => ?_
            subst same
            simp [Act.onto, member] at kept
          rw [apart, Option.none_or]
          simp [kept]

end LastBound

section Lawful

variable {history : List Act}

theorem Value.Known.within {value : Value} (known : value.Known history) :
    value.Within (after history) := by
  intro part inside
  rcases known part inside with ⟨homes, identities⟩
  refine ⟨homes, fun identity own => ?_⟩
  rw [after_next]
  exact (List.getElem?_eq_some_iff.mp (identities identity own)).1

theorem Lawful.wellFormed (lawful : Lawful history) : (after history).WellFormed := by
  induction history using List.reverseRecOn with
  | nil => exact empty_wellFormed
  | append_singleton history act ih =>
      rcases lawful_concat.mp lawful with ⟨before, admitted⟩
      have formed := ih before
      rw [after_concat]
      cases act with
      | added outer => exact formed.addScope admitted
      | bound own name value => exact formed.bind own name admitted.2.within
      | made | printed | taken | entered | left => exact formed.of_scopes (perform_grows _ _) rfl

theorem Lawful.bindings (lawful : Lawful history) (id : ScopeId) (name : String) :
    Table.find? name ((after history).bindings id) = lastBound history id name := by
  induction history using List.reverseRecOn with
  | nil => rfl
  | append_singleton history act ih =>
      rcases lawful_concat.mp lawful with ⟨before, admitted⟩
      rw [after_concat, lastBound_concat, ← ih before]
      cases act with
      | added outer => exact congrArg (Table.find? name) (bindings_addScope _ outer id)
      | bound own other value =>
          -- the scope is there, so the binding takes effect
          simp only [perform, bindings_bind _ admitted.1, Act.binds]
          by_cases same : own = id
          · simp only [same, true_and, if_true, Table.find?_write]
            split <;> rfl
          · simp [same]
      | _ => rfl

/-- A name means what was last bound to it in the first scope of the way in which it was bound. -/
theorem Lawful.lookup_eq (lawful : Lawful history) {scope : ScopeId} {chain : List ScopeId}
    (outward : (after history).Outward scope chain) (name : String) :
    (after history).lookup scope name = chain.findSome? fun id => lastBound history id name := by
  rw [Machine.lookup, outward.search name (lawful.wellFormed.descends outward).2.2]
  simp only [lawful.bindings]

end Lawful

def NeverBound (history : List Act) (scope : ScopeId) (name : String) : Prop :=
  ∀ value, .bound scope name value ∉ history

/-- What names mean in a scope, after a history, when a way leads outward from it. -/
structure Resolves (history : List Act) (scope : ScopeId) (chain : List ScopeId) : Prop where
  outward : (after history).Outward scope chain
  unique : ∀ other, (after history).Outward scope other → other = chain
  /-- Each scope on the way is older than the one before, so none occurs twice. -/
  acyclic : chain.Pairwise (· > ·)
  /-- A search is over after as many steps as there are scopes on the way. -/
  ends : ∀ name steps, chain.length ≤ steps →
    (after history).search name steps scope = (after history).lookup scope name
  found : ∀ name value, (after history).lookup scope name = some value ↔
    ∃ nearer own further earlier later, chain = nearer ++ own :: further ∧
      (∀ id ∈ nearer, NeverBound history id name) ∧
      history = earlier ++ .bound own name value :: later ∧ NeverBound later own name
  missing : ∀ name, (after history).lookup scope name = none ↔ ∀ id ∈ chain, NeverBound history id name
  /-- Two histories that bind the same on the way, whatever else they do, give the same. -/
  apart : ∀ name other, Arises other → (after other).Outward scope chain →
    other.filter (Act.onto chain) = history.filter (Act.onto chain) →
    (after other).lookup scope name = (after history).lookup scope name

theorem Lawful.resolves {history : List Act} (lawful : Lawful history) {scope : ScopeId}
    {chain : List ScopeId} (outward : (after history).Outward scope chain) :
    Resolves history scope chain where
  outward := outward
  unique _ same := outward.unique same
  acyclic := (lawful.wellFormed.descends outward).1
  ends name steps enough := by
    have own := (lawful.wellFormed.descends outward).2.2
    rw [Machine.lookup, outward.search name enough, outward.search name own]
  found name value := by
    rw [lawful.lookup_eq outward, List.findSome?_eq_some_iff]
    simp only [lastBound_eq_none, lastBound_eq_some]
    constructor
    · rintro ⟨nearer, own, further, split, ⟨earlier, later, told, last⟩, never⟩
      exact ⟨nearer, own, further, earlier, later, split, never, told, last⟩
    · rintro ⟨nearer, own, further, earlier, later, split, never, told, last⟩
      exact ⟨nearer, own, further, split, ⟨earlier, later, told, last⟩, never⟩
  missing name := by
    rw [lawful.lookup_eq outward, List.findSome?_eq_none_iff]
    simp only [lastBound_eq_none, NeverBound]
  apart name other arises same agree := by
    have told (id : ScopeId) (member : id ∈ chain) :
        lastBound other id name = lastBound history id name := by
      rw [← lastBound_filter member other, agree, lastBound_filter member]
    rw [lawful.lookup_eq outward, arises.lawful.lookup_eq same, ← List.head?_filterMap,
      ← List.head?_filterMap, List.filterMap_congr told]

/-- At every moment of every history, and so at every moment of an evaluation, the scopes that functions
captured are there, and from every scope a way leads outward on which each name means its latest binding in
the nearest scope. -/
theorem names_resolve {history : List Act} (arises : Arises history) :
    (∀ value, Present history value → ∀ home ∈ value.home?, home < (after history).scopes.size) ∧
      (∀ scope < (after history).scopes.size, ∃ chain, Resolves history scope chain) ∧
      ∀ frames node, ∀ scope < (after history).scopes.size,
        let told := chronicle frames scope node (after history)
        (evaluate frames scope node).outcome (after history) =
            (told.result, after (history ++ told.acts)) ∧
          ∀ moment, moment <+: history ++ told.acts → Arises moment := by
  have lawful := arises.lawful
  refine ⟨fun value present => (lawful.present present).1, ?_, ?_⟩
  · intro scope inside
    rcases lawful.wellFormed.outward inside with ⟨chain, outward⟩
    exact ⟨chain, lawful.resolves outward⟩
  · intro frames node scope inside
    refine ⟨?_, fun moment early => ?_⟩
    · rw [evaluate_outcome, after_append]
      rfl
    · exact (arises.evaluated inside frames node).interrupted early

/-- `let x = 1; let f = fn(y) { x }; let x = 2; f(x)`. -/
def reboundProgram : Node :=
  .program
    [.binding ⟨"x", 1, 4⟩ (.integer 1 1) 1,
      .binding ⟨"f", 1, 15⟩
        (.function [⟨"y", 1, 22⟩] (.block [.statement (.identifier ⟨"x", 1, 27⟩) 1] 1) 1) 1,
      .binding ⟨"x", 1, 36⟩ (.integer 2 1) 1,
      .statement (.call (.identifier ⟨"f", 1, 43⟩) [.identifier ⟨"x", 1, 45⟩] 1) 1]

def reboundHistory : List Act :=
  [.added none] ++ (chronicle 11 0 reboundProgram (after [.added none])).acts

/-- In the scope of the call, inside the root, the name means what was bound to it after the function was
made. -/
theorem rebound_name_resolves : Arises reboundHistory ∧ Resolves reboundHistory 1 [1, 0] ∧
    .bound 0 "x" (.integer 1) ∈ reboundHistory ∧
    (after reboundHistory).lookup 1 "x" = some (.integer 2) := by
  have arises : Arises reboundHistory :=
    Arises.evaluated (@Arises.performed [] (.added none) .nothing nofun) Nat.zero_lt_one 11 reboundProgram
  have way : (after reboundHistory).Outward 1 [1, 0] := .inside rfl rfl (.top rfl rfl)
  rcases (names_resolve arises).2.1 1 (by decide +kernel) with ⟨chain, resolves⟩
  cases resolves.unique _ way
  have first : reboundHistory[5]? = some (.bound 0 "x" (.integer 1)) := rfl
  exact ⟨arises, resolves, List.mem_of_getElem? first, rfl⟩

end Marmoset
