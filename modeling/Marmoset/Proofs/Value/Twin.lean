import Mathlib.Data.List.Forall2
import Marmoset.Evaluation.Operation
import Marmoset.Proofs.Table
import Marmoset.Value.Inspect

/-!
Values that are built in the same way, of parts that stand for each other. Operators and indexing look at no
more of a value than that, and at its identity.
-/

namespace Marmoset

inductive Keyed {κ : Type} (related : Value → Value → Prop) :
    List (κ × Value) → List (κ × Value) → Prop
  | nil : Keyed related [] []
  | cons {value other : Value} {rest others : List (κ × Value)} (key : κ)
      (head : related value other) (tail : Keyed related rest others) :
      Keyed related ((key, value) :: rest) ((key, other) :: others)

inductive Results {ε α : Type} (related : α → α → Prop) : Except ε α → Except ε α → Prop
  | ok {value other : α} (alike : related value other) : Results related (.ok value) (.ok other)
  | error (reason : ε) : Results related (.error reason) (.error reason)

theorem Keyed.imp {κ : Type} {weak strong : Value → Value → Prop} {entries others : List (κ × Value)}
    (keyed : Keyed strong entries others)
    (implied : ∀ value other, strong value other → weak value other) : Keyed weak entries others := by
  induction keyed with
  | nil => exact .nil
  | cons key head tail ih => exact .cons key (implied _ _ head) ih

section Lookup

variable {κ : Type} [DecidableEq κ] {related : Value → Value → Prop} {table others : List (κ × Value)}

theorem Keyed.find? (keyed : Keyed related table others) (key : κ) :
    Option.Rel related (Table.find? key table) (Table.find? key others) := by
  induction keyed with
  | nil => exact .none
  | cons own head tail ih =>
      simp only [Table.find?_cons]
      split
      · exact .some head
      · exact ih

theorem Keyed.write {value other : Value} (keyed : Keyed related table others) (key : κ)
    (alike : related value other) :
    Keyed related (Table.write key value table) (Table.write key other others) := by
  induction keyed with
  | nil => exact .cons key alike .nil
  | cons own head tail ih =>
      simp only [Table.write]
      split
      · exact .cons key alike tail
      · exact .cons own head ih

theorem Keyed.self {κ : Type} {entries : List (κ × Value)}
    (inside : ∀ entry ∈ entries, related entry.2 entry.2) : Keyed related entries entries := by
  induction entries with
  | nil => exact .nil
  | cons entry entries ih =>
      rcases List.forall_mem_cons.mp inside with ⟨own, rest⟩
      exact .cons entry.1 own (ih rest)

end Lookup

namespace Value

def extent : Value → Nat
  | string text => text.length
  | array _ elements => elements.length
  | _ => 0

/-- Values that operators give. -/
inductive Computed : Value → Prop
  | null : Computed null
  | boolean (value : Bool) : Computed (boolean value)
  | string (value : String) : Computed (string value)
  | builtin (function : Builtin) : Computed (builtin function)
  | word (value : Int) : Computed (integer (wrap value))

/-- Two values are built in the same way, apart from the identities that they carry. -/
inductive Twin (value : Value → Value → Prop) (scope : ScopeId → ScopeId → Prop)
    (function : List Name → Node → List Name → Node → Prop) : Value → Value → Prop
  | integer (number : Int) : Twin value scope function (.integer number) (.integer number)
  | boolean (truth : Bool) : Twin value scope function (.boolean truth) (.boolean truth)
  | string (text : String) : Twin value scope function (.string text) (.string text)
  | null : Twin value scope function .null .null
  | builtin (builtin : Builtin) : Twin value scope function (.builtin builtin) (.builtin builtin)
  | error (fault : Fault) : Twin value scope function (.error fault) (.error fault)
  | array {identity other : Identity} {elements others : List Value}
      (inside : List.Forall₂ value elements others) :
      Twin value scope function (.array identity elements) (.array other others)
  | hash {identity other : Identity} {entries others : Entries} (inside : Keyed value entries others) :
      Twin value scope function (.hash identity entries) (.hash other others)
  | function {identity other : Identity} {parameters names : List Name} {own away : Node}
      {home abroad : ScopeId} (alike : function parameters own names away) (captured : scope home abroad) :
      Twin value scope function (.function identity parameters own home) (.function other names away abroad)
  | returned {identity other : Identity} {inner away : Value} (inside : value inner away) :
      Twin value scope function (.returned identity inner) (.returned other away)

variable {related : Value → Value → Prop} {scope : ScopeId → ScopeId → Prop}
  {function : List Name → Node → List Name → Node → Prop} {value other : Value}

namespace Twin

theorem tag (twin : Twin related scope function value other) : other.tag = value.tag := by
  cases twin <;> rfl

theorem truthy (twin : Twin related scope function value other) : other.truthy = value.truthy := by
  cases twin <;> rfl

theorem key? (twin : Twin related scope function value other) : other.key? = value.key? := by
  cases twin <;> rfl

theorem isReturned (twin : Twin related scope function value other) :
    other.isReturned = value.isReturned := by
  cases twin <;> rfl

theorem isError (twin : Twin related scope function value other) : other.isError = value.isError := by
  cases twin <;> rfl

theorem same (twin : Twin related scope function value other) (failed : value.isError = true) :
    other = value := by
  cases twin with
  | error fault => rfl
  | _ => cases failed

end Twin

theorem isError_eq_true : value.isError = true ↔ ∃ fault, value = .error fault := by
  cases value <;> simp [isError]

/-- A value that can be a key is the value of that key: entries that keep no more than the key lose nothing
of the value that it was made from. -/
theorem eq_toValue_of_key? {key : Key} (own : value.key? = some key) : value = key.toValue := by
  cases value <;> cases own <;> rfl

theorem elements_getElem? {elements others : List Value}
    (inside : List.Forall₂ related elements others) (position : Nat) :
    Option.Rel related elements[position]? others[position]? := by
  induction inside generalizing position with
  | nil => exact .none
  | cons head tail ih =>
      cases position with
      | zero => exact .some head
      | succ position => exact ih position

theorem getD_null {found away : Option Value} (null : related null null)
    (inside : Option.Rel related found away) : related (found.getD .null) (away.getD .null) := by
  cases inside with
  | none => exact null
  | some alike => exact alike

theorem indexed_twin {container position abroad place : Value}
    (first : Twin related scope function container abroad) (second : Twin related scope function position place)
    (null : related null null) :
    Results related (container.indexed position) (abroad.indexed place) := by
  cases first with
  | array inside =>
      cases second with
      | integer position =>
          simp only [indexed]
          split
          · exact .ok (getD_null null (elements_getElem? inside position.toNat))
          · exact .ok null
      | _ => exact .error _
  | hash inside =>
      simp only [indexed, second.key?, second.tag]
      split
      · exact .ok (getD_null null (inside.find? _))
      · exact .error _
  | _ => exact .error _

end Value

namespace Operator

open Value

variable {related : Value → Value → Prop} {scope : ScopeId → ScopeId → Prop}
  {function : List Name → Node → List Name → Node → Prop}

theorem onOne_twin (operator : Operator) {operand other : Value}
    (twin : Twin related scope function operand other) : operator.onOne other = operator.onOne operand := by
  cases operator with
  | not => simp only [onOne, twin.truthy]
  | sub =>
      cases twin with
      | integer value => rfl
      | _ => rfl
  | _ => simp only [onOne, twin.tag]

theorem onBoth_twin (operator : Operator) {left right left' right' : Value}
    (first : Twin related scope function left left') (second : Twin related scope function right right')
    (same : left'.identical right' = left.identical right) :
    operator.onBoth left' right' = operator.onBoth left right := by
  have others : operator.onOthers left' right' = operator.onOthers left right := by
    simp only [onOthers, first.tag, second.tag, same]
  cases first with
  | integer left => cases second <;> rfl
  | string left => cases second <;> rfl
  | _ => exact others

theorem onOne_computed {operator : Operator} {operand value : Value}
    (result : operator.onOne operand = .ok value) : value.Computed := by
  unfold onOne at result
  split at result <;> cases result
  · exact .boolean _
  · exact .word _

theorem onIntegers_computed {operator : Operator} {left right : Int} {value : Value}
    (result : operator.onIntegers left right = .ok value) : value.Computed := by
  cases operator with
  | add | sub | mul =>
      cases result
      exact .word _
  | div =>
      simp only [onIntegers] at result
      split at result <;> cases result
      exact .word _
  | lt | gt | eq | ne =>
      cases result
      exact .boolean _
  | not => cases result

theorem onBoth_computed {operator : Operator} {left right value : Value}
    (result : operator.onBoth left right = .ok value) : value.Computed := by
  unfold onBoth at result
  split at result
  · exact onIntegers_computed result
  · cases operator <;> cases result
    exact .string _
  · unfold onOthers at result
    split at result
    · cases result
    · split at result <;> cases result <;> exact .boolean _

end Operator

end Marmoset
