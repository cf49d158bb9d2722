import Marmoset.Grammar
import Mathlib.Data.List.Forall2

/-!
What two readings may take for the same. A congruence relates tokens, and nodes that are read from them; it
has one rule for each form of the language, which says that the form is the same as soon as its parts
are. A property of single nodes is a congruence too, namely one that relates no two different nodes.
-/

namespace Marmoset

open Grammar

structure Congruence where
  token : Token → Token → Prop
  name : Name → Name → Prop
  expression : Node → Node → Prop
  block : Node → Node → Prop
  statement : Node → Node → Prop
  /-- No decision of the grammar is made on anything else than classes and literals. -/
  kind : ∀ {first second}, token first second → second.kind = first.kind
  literal : ∀ {first second}, token first second → second.literal = first.literal
  named : ∀ {first second}, token first second → first.kind = .ident →
    name (nameOf first) (nameOf second)
  identifier : ∀ {first second}, name first second →
    expression (.identifier first) (.identifier second)
  integer : ∀ {first second value}, token first second → first.kind = .int →
    Text.readInteger first.literal = .ok value → value ≤ integerMax →
    expression (.integer value first.line) (.integer value second.line)
  string : ∀ {first second}, token first second → first.kind = .string →
    expression (.string first.literal first.line) (.string second.literal second.line)
  boolean : ∀ {first second} (value : Bool), token first second →
    expression (.boolean value first.line) (.boolean value second.line)
  array : ∀ {first second elements others}, token first second →
    List.Forall₂ expression elements others →
    expression (.array elements first.line) (.array others second.line)
  map : ∀ {first second pairs others}, token first second →
    List.Forall₂ (fun pair other => expression pair.1 other.1 ∧ expression pair.2 other.2) pairs
      others →
    expression (.map pairs first.line) (.map others second.line)
  unary : ∀ {first second operator operand other}, token first second →
    operator = .not ∨ operator = .sub → expression operand other →
    expression (.unary operator operand first.line) (.unary operator other second.line)
  binary : ∀ {first second operator left left' right right'}, token first second →
    first.kind.binary? = some operator → expression left left' → expression right right' →
    expression (.binary left operator right first.line) (.binary left' operator right' second.line)
  conditional : ∀ {first second condition condition' chosen chosen' rejected rejected'},
    token first second → expression condition condition' → block chosen chosen' →
    Option.Rel block rejected rejected' →
    expression (.conditional condition chosen rejected first.line)
      (.conditional condition' chosen' rejected' second.line)
  function : ∀ {first second parameters others body body'}, token first second →
    List.Forall₂ name parameters others → block body body' →
    expression (.function parameters body first.line) (.function others body' second.line)
  call : ∀ {first second callee callee' arguments others}, token first second →
    expression callee callee' → List.Forall₂ expression arguments others →
    expression (.call callee arguments first.line) (.call callee' others second.line)
  index : ∀ {first second container container' position position'}, token first second →
    expression container container' → expression position position' →
    expression (.index container position first.line) (.index container' position' second.line)
  braces : ∀ {first second statements others}, token first second →
    List.Forall₂ statement statements others →
    block (.block statements first.line) (.block others second.line)
  binding : ∀ {first second target target' value value'}, token first second → name target target' →
    expression value value' →
    statement (.binding target value first.line) (.binding target' value' second.line)
  returning : ∀ {first second value value'}, token first second → expression value value' →
    statement (.returning value first.line) (.returning value' second.line)
  bare : ∀ {first second value value'}, token first second → expression value value' →
    statement (.statement value first.line) (.statement value' second.line)

abbrev Congruence.pair (congruence : Congruence) (first second : Node × Node) : Prop :=
  congruence.expression first.1 second.1 ∧ congruence.expression first.2 second.2

theorem eq_of_forall₂ {α : Type} {first second : List α} (same : List.Forall₂ Eq first second) :
    first = second := by
  rwa [List.forall₂_eq_eq_eq] at same

def Congruence.same : Congruence where
  token := Eq
  name := Eq
  expression := Eq
  block := Eq
  statement := Eq
  kind := fun equal => equal ▸ rfl
  literal := fun equal => equal ▸ rfl
  named := fun equal _ => equal ▸ rfl
  identifier := fun equal => equal ▸ rfl
  integer := fun equal _ _ _ => equal ▸ rfl
  string := fun equal _ => equal ▸ rfl
  boolean := fun _ equal => equal ▸ rfl
  array := fun equal elements => by rw [equal, eq_of_forall₂ elements]
  map := by
    intro first second pairs others equal inside
    have same : pairs = others := by
      induction inside with
      | nil => rfl
      | cons pair _ ih => rw [Prod.ext pair.1 pair.2, ih]
    rw [equal, same]
  unary := fun equal _ operand => by rw [equal, operand]
  binary := fun equal _ left right => by rw [equal, left, right]
  conditional := by
    intro first second condition condition' chosen chosen' rejected rejected' equal test block other
    cases other with
    | none => rw [equal, test, block]
    | some inner => rw [equal, test, block, inner]
  function := fun equal names body => by rw [equal, eq_of_forall₂ names, body]
  call := fun equal callee arguments => by rw [equal, callee, eq_of_forall₂ arguments]
  index := fun equal container position => by rw [equal, container, position]
  braces := fun equal statements => by rw [equal, eq_of_forall₂ statements]
  binding := fun equal target value => by rw [equal, target, value]
  returning := fun equal value => by rw [equal, value]
  bare := fun equal value => by rw [equal, value]

end Marmoset
