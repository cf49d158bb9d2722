import Marmoset.Proofs.Evaluation.Frame
import Marmoset.Proofs.Evaluation.Scoping
import Marmoset.Proofs.Session.Runs

/-!
Calls can be repeated. A call leaves every scope that was there as it was, so when it is made again it
finds all it can reach unchanged, and does the same: it prints the same text and gives a value of the
same type and the same text. Only the numbers of new scopes and the identities of new values differ.
-/

namespace Marmoset

open Eval Evaluation

namespace Machine

/-- The machines that can come about: from the empty one by new scopes, by evaluating in a scope and by
calling, and from outside by binding values of the machine, giving out identities for new values, and
taking what was printed. -/
inductive Reachable : Machine → Prop
  | empty : Reachable empty
  | enclosed {machine : Machine} {outer : Option ScopeId} (before : Reachable machine)
      (inside : ∀ id ∈ outer, id < machine.scopes.size) : Reachable (machine.addScope outer).2
  | evaluated {machine : Machine} {scope : ScopeId} (before : Reachable machine)
      (inside : scope < machine.scopes.size) (frames : Nat) (node : Node) :
      Reachable ((evaluate frames scope node).outcome machine).2
  | called {machine : Machine} {callee : Value} {arguments : List Value} (before : Reachable machine)
      (within : ∀ value ∈ callee :: arguments, value.Within machine) (frames : Nat) :
      Reachable ((apply frames callee arguments).outcome machine).2
  | bound {machine : Machine} {value : Value} (before : Reachable machine)
      (within : value.Within machine) (scope : ScopeId) (name : String) :
      Reachable (machine.bind scope name value)
  | identified {machine : Machine} (before : Reachable machine) : Reachable machine.freshIdentity.2
  | taken {machine : Machine} (before : Reachable machine) : Reachable machine.takePrinted.2

theorem Reachable.wellFormed {machine : Machine} (reachable : machine.Reachable) :
    machine.WellFormed := by
  induction reachable with
  | empty => exact empty_wellFormed
  | enclosed before inside ih => exact ih.addScope inside
  | evaluated before inside frames node ih =>
      exact evaluate_wellFormed frames inside ih node
  | called before within frames ih => exact apply_wellFormed frames within ih
  | bound before within scope name ih => exact ih.bind scope name within
  | identified before ih => exact ih.of_scopes ⟨Nat.le_refl _, Nat.le_succ _⟩ rfl
  | taken before ih => exact ih.of_scopes (Machine.perform_grows _ .taken) rfl

theorem WellFormed.reaches {machine : Machine} (formed : machine.WellFormed) {roots : List Value}
    (within : ∀ value ∈ roots, value.Within machine) {id : ScopeId}
    (reached : machine.Reaches roots id) : id < machine.scopes.size := by
  induction reached with
  | captured root inside captured => exact (within _ root _ inside).1 _ captured
  | outward reached there outside ih =>
      exact Nat.lt_trans (formed.older _ _ _ there outside) ih
  | bound reached there bound inside captured ih =>
      exact (formed.within _ _ there _ bound _ inside).1 _ captured

theorem Retains.agree {before after : Machine} (retains : before.Retains after) {id : ScopeId}
    (inside : id < before.scopes.size) : after.scopes[id]? = before.scopes[id]? := by
  have there : before.scopes[id]? = some before.scopes[id] := Array.getElem?_eq_getElem inside
  rw [there]
  exact retains id _ there

end Machine

/-- A session in a scope of a machine that can come about. A new session is one, and running sources,
calling and setting names keep it so. -/
structure Session.Reachable (session : Session) : Prop where
  machine : session.machine.Reachable
  root : session.root < session.machine.scopes.size

namespace Session

theorem new_reachable : new.Reachable := by
  constructor
  · exact .enclosed .empty nofun
  · exact Nat.zero_lt_one

namespace Reachable

variable {session : Session}

theorem grown {machine : Machine} (reachable : session.Reachable) (grows : session.machine.Grows machine)
    (after : machine.Reachable) : ({ session with machine } : Session).Reachable :=
  ⟨after, Nat.lt_of_lt_of_le reachable.root grows.scopes⟩

theorem evaluate (reachable : session.Reachable) (node : Node) :
    (session.evaluate node).2.Reachable :=
  reachable.grown (evaluate_grows session.limit session.root node session.machine)
    (reachable.machine.evaluated reachable.root session.limit node)

theorem run (reachable : session.Reachable) (source : String) : (session.run source).2.Reachable := by
  rcases session.run_cases source with ⟨failure, run⟩ | ⟨statements, -, run⟩
  · rw [run]
    exact reachable
  · rw [run]
    exact reachable.evaluate (.program statements)

theorem get? (reachable : session.Reachable) {name : String} {value : Value}
    (found : session.get? name = some value) : value.Within session.machine :=
  reachable.machine.wellFormed.lookup found

theorem call (reachable : session.Reachable) {callee : Value} {arguments : List Value}
    (within : ∀ value ∈ callee :: arguments, value.Within session.machine) :
    (session.call callee arguments).2.Reachable :=
  reachable.grown (apply_grows session.limit callee arguments session.machine)
    (reachable.machine.called within session.limit)

theorem set (reachable : session.Reachable) (name : String) {value : Value}
    (within : value.Within session.machine) : (session.set name value).Reachable :=
  reachable.grown (session.machine.perform_grows (.bound session.root name value))
    (reachable.machine.bound within session.root name)

end Reachable

end Session

/-- Two values that cannot be told apart by type or text. -/
def Value.LooksLike (value other : Value) : Prop :=
  other.tag = value.tag ∧ other.inspect = value.inspect

theorem Results.looksLike {scopes : ScopeId → ScopeId → Prop} {identities : Identity → Identity → Prop}
    {result other : Except Stop Value} (alike : Results (Value.Alike scopes identities) result other) :
    Results Value.LooksLike (Stop.conclude result) (Stop.conclude other) := by
  cases alike with
  | ok alike => exact .ok ⟨alike.twin.tag, alike.inspect⟩
  | error stop =>
      cases stop with
      | exhausted => exact .error _
      | unknownNode leaf => exact .error _

/-- A call that is made twice, the second time on the machine that the first one left, prints the same
text both times, and gives values of the same type and text, or none for the same reason. -/
theorem call_repeatable (frames : Nat) (callee : Value) (arguments : List Value) (machine : Machine)
    (reachable : machine.Reachable)
    (within : ∀ value ∈ callee :: arguments, value.Within machine) :
    let first := (apply frames callee arguments).outcome machine
    let second := (apply frames callee arguments).outcome first.2
    Results Value.LooksLike (Stop.conclude first.1) (Stop.conclude second.1) ∧
      ∃ text, first.2.printed = machine.printed ++ text ∧
        second.2.printed = first.2.printed ++ text := by
  intro first second
  have formed := reachable.wellFormed
  have grows : machine.Grows first.2 := apply_grows frames callee arguments machine
  have retains : machine.Retains first.2 := (evaluation_frame frames machine).2 callee arguments
  have after : first.2.WellFormed := apply_wellFormed frames within formed
  have agree (id : ScopeId) (reached : machine.Reaches (callee :: arguments) id) :
      first.2.scopes[id]? = machine.scopes[id]? :=
    retains.agree (formed.reaches within reached)
  have both : ∀ value ∈ callee :: arguments, value.Within machine ∧ value.Within first.2 :=
    fun value member => ⟨within value member, (within value member).grown grows⟩
  rcases apply_renumbered frames callee arguments both (agreement_holds formed after agree) with
    ⟨made, results, holds⟩
  exact ⟨results.looksLike, holds.printed⟩

def pairBody : Node :=
  .block
    [.statement (.call (.identifier ⟨"puts", 1, 19⟩) [.identifier ⟨"n", 1, 24⟩] 1) 1,
      .statement
        (.array
          [.identifier ⟨"n", 1, 29⟩,
            .function [] (.block [.statement (.identifier ⟨"n", 1, 39⟩) 1] 1) 1] 1) 1] 1

def pair : Value := .function 0 [⟨"n", 1, 14⟩] pairBody 0

/-- The session after `let pair = fn(n) { puts(n); [n, fn() { n }] }`: the function prints its argument,
and gives a new array with it and a new function of it. -/
def pairSession : Session :=
  (Session.new.evaluate
    (.program [.binding ⟨"pair", 1, 4⟩ (.function [⟨"n", 1, 14⟩] pairBody 1) 1])).2

/-- The second call gives another array than the first, which looks the same. -/
theorem pair_repeatable :
    ∃ first second, first = (apply 9 pair [.integer 3]).outcome pairSession.machine ∧
      second = (apply 9 pair [.integer 3]).outcome first.2 ∧
      pairSession.get? "pair" = some pair ∧ pairSession.machine.Reachable ∧
      (∀ value ∈ [pair, .integer 3], value.Within pairSession.machine) ∧
      first.1.toOption.bind Value.identity? = some 2 ∧ second.1.toOption.bind Value.identity? = some 4 ∧
      Results Value.LooksLike (Stop.conclude first.1) (Stop.conclude second.1) ∧
      first.2.printed = "3\n" ∧ second.2.printed = "3\n" ++ "3\n" := by
  have reachable : pairSession.machine.Reachable := (Session.new_reachable.evaluate _).machine
  have within : ∀ value ∈ [pair, .integer 3], value.Within pairSession.machine := by decide
  rcases call_repeatable 9 pair [.integer 3] pairSession.machine reachable within with
    ⟨alike, text, text_first, text_second⟩
  have printed : ((apply 9 pair [.integer 3]).outcome pairSession.machine).2.printed = "3\n" := by
    decide +kernel
  have same : "3\n" = text := by
    calc "3\n" = pairSession.machine.printed ++ text := printed.symm.trans text_first
      _ = text := String.empty_append
  refine ⟨_, _, rfl, rfl, rfl, reachable, within, by decide +kernel, by decide +kernel, alike, printed,
    ?_⟩
  rw [text_second, printed, ← same]

end Marmoset
