import Marmoset.Proofs.Value.Twin

/-!
The parts of values. What holds of all parts of a value holds of all parts of what it is made of, and of
what is found in it.
-/

namespace Marmoset

namespace Value

/-- The values that a value holds itself. -/
def contents : Value → List Value
  | array _ elements => elements
  | hash _ entries => entries.map Prod.snd
  | returned _ value => [value]
  | _ => []

mutual

def parts : Value → List Value
  | array identity elements => array identity elements :: partsAll elements
  | hash identity entries => hash identity entries :: partsEntries entries
  | returned identity value => returned identity value :: parts value
  | value => [value]
termination_by structural value => value

def partsAll : List Value → List Value
  | [] => []
  | value :: values => parts value ++ partsAll values
termination_by structural values => values

def partsEntries : List (Key × Value) → List Value
  | [] => []
  | (_, value) :: entries => parts value ++ partsEntries entries
termination_by structural entries => entries

end

def home? : Value → Option ScopeId
  | function _ _ _ home => some home
  | _ => none

def identity? : Value → Option Identity
  | array identity _ | hash identity _ | function identity _ _ _ | returned identity _ =>
    some identity
  | _ => none

def body? : Value → Option Node
  | function _ _ body _ => some body
  | _ => none

theorem mem_partsAll {part : Value} {values : List Value} :
    part ∈ partsAll values ↔ ∃ value ∈ values, part ∈ value.parts := by
  induction values with
  | nil => simp [partsAll]
  | cons value values ih => simp [partsAll, ih]

theorem mem_partsEntries {part : Value} {entries : Entries} :
    part ∈ partsEntries entries ↔ ∃ entry ∈ entries, part ∈ entry.2.parts := by
  induction entries with
  | nil => simp [partsEntries]
  | cons entry entries ih => simp [partsEntries, ih]

theorem mem_parts {part value : Value} :
    part ∈ value.parts ↔ part = value ∨ ∃ inner ∈ value.contents, part ∈ inner.parts := by
  cases value with
  | hash identity entries =>
      simp only [parts, contents, List.mem_cons, mem_partsEntries, List.mem_map,
        exists_exists_and_eq_and]
  | _ => simp [parts, contents, mem_partsAll]

theorem parts_self (value : Value) : value ∈ value.parts := mem_parts.mpr (.inl rfl)

def MadeOf (allowed : Value → Prop) (value : Value) : Prop := ∀ part ∈ value.parts, allowed part

variable {allowed : Value → Prop} {value : Value}

theorem madeOf_iff : value.MadeOf allowed ↔
    allowed value ∧ ∀ inner ∈ value.contents, inner.MadeOf allowed := by
  constructor
  · intro made
    exact ⟨made value value.parts_self, fun inner member part inside =>
      made part (mem_parts.mpr (.inr ⟨inner, member, inside⟩))⟩
  · rintro ⟨own, inside⟩ part member
    rcases mem_parts.mp member with rfl | ⟨inner, held, deep⟩
    · exact own
    · exact inside inner held part deep

theorem MadeOf.own (made : value.MadeOf allowed) : allowed value := (madeOf_iff.mp made).1

theorem MadeOf.inside (made : value.MadeOf allowed) : ∀ inner ∈ value.contents, inner.MadeOf allowed :=
  (madeOf_iff.mp made).2

theorem MadeOf.mono {weak : Value → Prop} (made : value.MadeOf allowed)
    (implied : ∀ part, allowed part → weak part) : value.MadeOf weak :=
  fun part inside => implied part (made part inside)

theorem madeOf_computed (computed : value.Computed) (own : allowed value) : value.MadeOf allowed := by
  refine madeOf_iff.mpr ⟨own, ?_⟩
  cases computed <;> exact nofun

theorem twin_self {related : Value → Value → Prop} {scope : ScopeId → ScopeId → Prop}
    {functions : List Name → Node → List Name → Node → Prop}
    (inside : ∀ inner ∈ value.contents, related inner inner)
    (captured : ∀ identity parameters body home, value = .function identity parameters body home →
      functions parameters body parameters body ∧ scope home home) :
    value.Twin related scope functions value := by
  cases value with
  | integer number => exact .integer number
  | boolean truth => exact .boolean truth
  | string text => exact .string text
  | null => exact .null
  | builtin builtin => exact .builtin builtin
  | error fault => exact .error fault
  | array identity elements => exact .array (List.forall₂_same.mpr inside)
  | hash identity entries =>
      exact .hash (Keyed.self fun entry member => inside entry.2 (List.mem_map_of_mem member))
  | function identity parameters body home =>
      have own := captured identity parameters body home rfl
      exact .function own.1 own.2
  | returned identity value => exact .returned (inside value List.mem_cons_self)

end Value

end Marmoset
