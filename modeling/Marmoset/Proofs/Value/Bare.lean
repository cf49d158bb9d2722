import Marmoset.Proofs.Tree.RoundTrip
import Marmoset.Proofs.Tree.Twin
import Marmoset.Proofs.Value.Twin
import Marmoset.Value.Equality

/-!
Values without places. The text of a value does not depend on the places inside functions.
-/

namespace Marmoset

namespace Value

mutual

def bare : Value → Value
  | array identity elements => array identity (bareAll elements)
  | hash identity entries => hash identity (bareEntries entries)
  | function identity parameters body scope =>
    function identity (parameters.map Name.bare) body.bare scope
  | returned identity value => returned identity (bare value)
  | value => value
termination_by structural value => value

def bareAll : List Value → List Value
  | [] => []
  | value :: values => bare value :: bareAll values
termination_by structural values => values

def bareEntries : List (Key × Value) → List (Key × Value)
  | [] => []
  | (key, value) :: entries => (key, bare value) :: bareEntries entries
termination_by structural entries => entries

end

theorem bareAll_eq_map (values : List Value) : bareAll values = values.map bare := by
  induction values with
  | nil => rfl
  | cons value values ih => rw [bareAll, ih, List.map_cons]

theorem identical_bare (first second : Value) :
    first.bare.identical second.bare = first.identical second := by
  cases first <;> cases second <;> rfl

end Value

theorem names_bare (names : List Name) : (names.map Name.bare).map Name.text = names.map Name.text := by
  rw [List.map_map]
  rfl

namespace Value

mutual

theorem inspect_bare : (value : Value) → value.bare.inspect = value.inspect
  | integer _ | boolean _ | string _ | null | builtin _ | error _ => rfl
  | array _ elements => by rw [bare, inspect, inspect, inspects_bare elements]
  | hash _ entries => by rw [bare, inspect, inspect, inspectEntries_bare entries]
  | function _ parameters body _ => by
      rw [bare, inspect, inspect, names_bare, Node.canonical_bare]
  | returned _ value => by rw [bare, inspect, inspect, inspect_bare value]

theorem inspects_bare : (values : List Value) → inspects (bareAll values) = inspects values
  | [] => rfl
  | value :: values => by rw [bareAll, inspects, inspects, inspect_bare value, inspects_bare values]

theorem inspectEntries_bare : (entries : List (Key × Value)) →
    inspectEntries (bareEntries entries) = inspectEntries entries
  | [] => rfl
  | (key, value) :: entries => by
      rw [bareEntries, inspectEntries, inspectEntries, inspect_bare value,
        inspectEntries_bare entries]

end

mutual

theorem inspectFrames_bare : (value : Value) → value.bare.inspectFrames = value.inspectFrames
  | integer _ | boolean _ | string _ | null | builtin _ | error _ => rfl
  | array _ elements => by rw [bare, inspectFrames, inspectFrames, inspectFramesAll_bare elements]
  | hash _ entries => by rw [bare, inspectFrames, inspectFrames, inspectFramesEntries_bare entries]
  | function _ parameters body _ => by rw [bare, inspectFrames, inspectFrames, Node.textFrames_bare]
  | returned _ value => by rw [bare, inspectFrames, inspectFrames, inspectFrames_bare value]

theorem inspectFramesAll_bare : (values : List Value) →
    inspectFramesAll (bareAll values) = inspectFramesAll values
  | [] => rfl
  | value :: values => by
      rw [bareAll, inspectFramesAll, inspectFramesAll, inspectFrames_bare value,
        inspectFramesAll_bare values]

theorem inspectFramesEntries_bare : (entries : List (Key × Value)) →
    inspectFramesEntries (bareEntries entries) = inspectFramesEntries entries
  | [] => rfl
  | (key, value) :: entries => by
      rw [bareEntries, inspectFramesEntries, inspectFramesEntries, inspectFrames_bare value,
        inspectFramesEntries_bare entries]

end

theorem eq_map_bare {values others : List Value}
    (alike : List.Forall₂ (fun value other => other = value.bare) values others) :
    others = values.map bare := by
  induction alike with
  | nil => rfl
  | cons head tail ih => rw [head, ih, List.map_cons]

theorem eq_bareEntries {entries others : Entries}
    (alike : Keyed (fun value other => other = value.bare) entries others) :
    others = bareEntries entries := by
  induction alike with
  | nil => rfl
  | cons key head tail ih => rw [head, ih, bareEntries]

theorem keyed_bare (entries : Entries) :
    Keyed (fun value other => other = value.bare) entries (bareEntries entries) := by
  induction entries with
  | nil => exact .nil
  | cons entry entries ih => exact .cons entry.1 rfl ih

theorem twin_bare (value : Value) : value.Twin (fun inner other => other = inner.bare) Eq
    (fun parameters own names other => names = parameters.map Name.bare ∧ other = own.bare)
    value.bare := by
  cases value with
  | integer number => exact .integer number
  | boolean truth => exact .boolean truth
  | string text => exact .string text
  | null => exact .null
  | builtin builtin => exact .builtin builtin
  | error fault => exact .error fault
  | array identity elements =>
      rw [bare, bareAll_eq_map]
      exact .array (List.forall₂_map_right_iff.mpr (List.forall₂_same.mpr fun _ _ => rfl))
  | hash identity entries => exact .hash (keyed_bare entries)
  | function identity parameters body home => exact .function ⟨rfl, rfl⟩ rfl
  | returned identity value => exact .returned rfl

end Value

end Marmoset
