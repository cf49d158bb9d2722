import Marmoset.Proofs.Evaluation.Renaming
import Marmoset.Proofs.Evaluation.Store

/-!
Scoping is lexical. What a call does depends on the scopes that can be reached from the callee and the
arguments, through the scopes that functions were made in, outward, and through the values bound
there. Two stores that agree on those give the same result and the same printed text, whatever else
they hold; new scopes and identities are numbered from where each store ends.
-/

namespace Marmoset

namespace Machine

/-- The scopes that can be reached from values. -/
inductive Reaches (machine : Machine) (roots : List Value) : ScopeId → Prop
  | captured {value part : Value} {home : ScopeId} (root : value ∈ roots)
      (inside : part ∈ value.parts) (captured : home ∈ part.home?) :
      Reaches machine roots home
  | outward {id outer : ScopeId} {scope : Scope} (reached : Reaches machine roots id)
      (there : machine.scopes[id]? = some scope) (outside : scope.outer = some outer) :
      Reaches machine roots outer
  | bound {id home : ScopeId} {scope : Scope} {binding : String × Value} {part : Value}
      (reached : Reaches machine roots id) (there : machine.scopes[id]? = some scope)
      (bound : binding ∈ scope.bindings) (inside : part ∈ binding.2.parts)
      (captured : home ∈ part.home?) : Reaches machine roots home

end Machine

section Agreement

variable {first second : Machine} {roots : List Value}

open Machine

theorem reached_alike (value : Value) (within : value.Within first) (within' : value.Within second)
    (reached : ∀ part ∈ value.parts, ∀ home ∈ part.home?, first.Reaches roots home) :
    (⟨first, second, first.Reaches roots⟩ : Start).Values 0 value value := by
  apply Value.alike_self
  intro part inside
  constructor
  · intro home captured
    exact .inl ⟨rfl, reached part inside home captured, (within part inside).1 home captured,
      (within' part inside).1 home captured⟩
  · intro identity own
    exact .inl ⟨rfl, (within part inside).2 identity own, (within' part inside).2 identity own⟩

theorem agreement_holds (sound : first.WellFormed) (sound' : second.WellFormed)
    (agree : ∀ id, first.Reaches roots id → second.scopes[id]? = first.scopes[id]?) :
    (⟨first, second, first.Reaches roots⟩ : Start).Holds 0 first second := by
  refine ⟨rfl, rfl, ⟨0, rfl, rfl⟩, ⟨"", ?_, ?_⟩, ?_⟩
  · exact String.append_empty.symm
  · exact String.append_empty.symm
  · intro home away related
    rcases related with ⟨rfl, reached, present, present'⟩ | ⟨new, none, -⟩
    · have there : first.scopes[home]? = some first.scopes[home] := Array.getElem?_eq_getElem present
      have there' := (agree home reached).trans there
      refine ⟨_, _, there, there', ?_, ?_⟩
      · apply Keyed.self
        intro binding bound
        apply reached_alike binding.2 (sound.within home _ there binding bound)
          (sound'.within home _ there' binding bound)
        intro part inside other captured
        exact .bound reached there bound inside captured
      · cases outside : first.scopes[home].outer with
        | none => exact .inl ⟨rfl, rfl⟩
        | some outer =>
            have older := sound.older home _ outer there outside
            refine .inr ⟨outer, outer, rfl, rfl, .inl ⟨rfl, ?_, ?_⟩, older, older⟩
            · exact .outward reached there outside
            · exact ⟨Nat.lt_trans older present, Nat.lt_trans older present'⟩
    · exact absurd none (Nat.not_lt_zero new)

end Agreement

namespace Evaluation

open Machine

/-- The same value called with the same arguments does the same on two machines, from the scopes that can be
reached. -/
theorem apply_renumbered (frames : Nat) (callee : Value) (arguments : List Value) {first second : Machine}
    (within : ∀ value ∈ callee :: arguments, value.Within first ∧ value.Within second)
    (held : Start.Holds ⟨first, second, first.Reaches (callee :: arguments)⟩ 0 first second) :
    let start : Start := ⟨first, second, first.Reaches (callee :: arguments)⟩
    let left := (apply frames callee arguments).outcome first
    let right := (apply frames callee arguments).outcome second
    ∃ made, Results (start.Values made) left.1 right.1 ∧ start.Holds made left.2 right.2 := by
  intro start left right
  have root : ∀ value ∈ callee :: arguments, start.Values 0 value value := by
    intro value member
    apply reached_alike value (within value member).1 (within value member).2
    intro part inside home captured
    exact .captured member inside captured
  have alike : List.Forall₂ (start.renumbering.Taken (0 : Nat)) arguments arguments :=
    List.forall₂_same.mpr fun value member => ⟨root value (List.mem_cons_of_mem _ member), trivial⟩
  have tells := start.renumbering_closed.calling frames (root callee List.mem_cons_self) alike held
    fun _ _ => trivial
  simp only [left, right, apply_outcome, Chronicle.outcome]
  exact ⟨_, Start.results_of_ends tells.ends, tells.course.ends⟩

/-- A call does the same in two stores that agree on all it can reach: it prints the same text, makes
the same scopes, and stops for the same reason or gives the same value, up to the numbers of new scopes
and the identities of new values. -/
theorem call_noninterference (frames : Nat) (callee : Value) (arguments : List Value)
    (first second : Machine) (sound : first.WellFormed) (sound' : second.WellFormed)
    (within : ∀ value ∈ callee :: arguments, value.Within first ∧ value.Within second)
    (agree : ∀ id, first.Reaches (callee :: arguments) id →
      second.scopes[id]? = first.scopes[id]?) :
    let start : Start := ⟨first, second, first.Reaches (callee :: arguments)⟩
    let left := (apply frames callee arguments).outcome first
    let right := (apply frames callee arguments).outcome second
    ∃ made text, left.2.printed = first.printed ++ text ∧ right.2.printed = second.printed ++ text ∧
      Results (start.Values made) left.1 right.1 ∧ start.Holds made left.2 right.2 := by
  intro start left right
  rcases apply_renumbered frames callee arguments within (agreement_holds sound sound' agree) with
    ⟨made, results, holds⟩
  rcases holds.printed with ⟨text, printed, printed'⟩
  exact ⟨made, text, printed, printed', results, holds⟩

/-- `fn(a) { puts(a + x); fn() { a } }`, made in the outermost scope. -/
def keeper : Value :=
  .function 0 [⟨"a", 1, 3⟩]
    (.block
      [.statement (.call (.identifier ⟨"puts", 1, 8⟩)
          [.binary (.identifier ⟨"a", 1, 13⟩) .add (.identifier ⟨"x", 1, 17⟩) 1] 1) 1,
        .statement (.function [] (.block [.statement (.identifier ⟨"a", 1, 29⟩) 1] 1) 1) 1] 1) 0

/-- The outermost scope binds `x` and the function, and a caller binds an `x` of its own. -/
def callerOfKeeper (own : Value) (next : Identity) : Machine :=
  ⟨#[⟨[("x", .integer 1), ("keep", keeper)], none⟩, ⟨[("x", own)], some 0⟩], next, ""⟩

theorem callerOfKeeper_wellFormed {own : Value} {next : Identity}
    (within : ∀ value ∈ [.integer 1, keeper, own], value.Within (callerOfKeeper own next)) :
    (callerOfKeeper own next).WellFormed := by
  constructor
  · rintro (_ | _ | id) scope outer there outside
    · cases there
      cases outside
    · cases there
      cases outside
      exact Nat.zero_lt_one
    · cases there
  · rintro (_ | _ | id) scope there binding bound
    · cases there
      rcases List.mem_pair.mp bound with rfl | rfl
      · exact within (.integer 1) (by simp)
      · exact within keeper (by simp)
    · cases there
      cases List.mem_singleton.mp bound
      exact within own (by simp)
    · cases there

theorem keeper_reaches {own : Value} {next : Identity} {id : ScopeId}
    (reached : (callerOfKeeper own next).Reaches [keeper, .integer 2] id) : id = 0 := by
  induction reached with
  | captured root inside captured =>
      rcases List.mem_pair.mp root with rfl | rfl
      · cases List.mem_singleton.mp inside
        exact (Option.some.inj captured).symm
      · cases List.mem_singleton.mp inside
        cases captured
  | outward reached there outside ih =>
      subst ih
      cases there
      cases outside
  | bound reached there bound inside captured ih =>
      subst ih
      cases there
      rcases List.mem_pair.mp bound with rfl | rfl
      · cases List.mem_singleton.mp inside
        cases captured
      · cases List.mem_singleton.mp inside
        exact (Option.some.inj captured).symm

/-- Whatever the caller's own `x` is, the function prints the sum with the outer one and keeps its
argument. -/
theorem keeper_noninterference :
    let first := callerOfKeeper (.integer 5) 1
    let second := callerOfKeeper (.array 3 [keeper]) 4
    first.WellFormed ∧ second.WellFormed ∧
      (∀ id, first.Reaches [keeper, .integer 2] id → second.scopes[id]? = first.scopes[id]?) ∧
      second.scopes[1]? ≠ first.scopes[1]? ∧
      ((apply 10 keeper [.integer 2]).outcome first).2.printed = "3\n" ∧
      ((apply 10 keeper [.integer 2]).outcome second).2.printed = "3\n" := by
  intro first second
  have sound : first.WellFormed := callerOfKeeper_wellFormed (by decide)
  have sound' : second.WellFormed := callerOfKeeper_wellFormed (by decide)
  have agree : ∀ id, first.Reaches [keeper, .integer 2] id →
      second.scopes[id]? = first.scopes[id]? := by
    intro id reached
    rw [keeper_reaches reached]
    rfl
  have within : ∀ value ∈ [keeper, .integer 2], value.Within first ∧ value.Within second := by
    decide
  have apart : second.scopes[1]? ≠ first.scopes[1]? := by
    simp [first, second, callerOfKeeper]
  have printed : ((apply 10 keeper [.integer 2]).outcome first).2.printed = "3\n" := by decide +kernel
  rcases call_noninterference 10 keeper [.integer 2] first second sound sound' within agree with
    ⟨made, text, text_first, text_second, -, -⟩
  refine ⟨sound, sound', agree, apart, printed, ?_⟩
  have same : text = "3\n" := by
    rw [printed] at text_first
    exact (String.empty_append.symm.trans text_first.symm)
  rw [text_second, same]
  rfl

end Evaluation

end Marmoset
