import Marmoset.Proofs.Tree.Form
import Marmoset.Proofs.Value.Parts

/-!
Regular values: integers are signed words, no error stands inside another value, and a hash has each of
its keys once. What operators compute is regular, and the writing of entries keeps hashes regular.
-/

namespace Marmoset

/-- The integers of the language: signed words of 64 bits. -/
def InRange (value : Int) : Prop := -0x8000000000000000 ≤ value ∧ value ≤ 0x7fffffffffffffff

theorem wrap_inRange (value : Int) : InRange (wrap value) := by
  rw [wrap_eq]
  constructor <;> omega

theorem Node.literal_inRange {value : Int} {line : Int}
    (formed : (Node.integer value line).wellFormed = true) : InRange value := by
  have own := every_own formed
  simp only [Node.formed, spelled, Bool.and_eq_true] at own
  exact ⟨Int.le_trans (by decide) (of_decide_eq_true own.2.1), of_decide_eq_true own.2.2⟩

namespace Value

/-- What a value holds itself is regular. A hash has distinct keys, and each entry stands under the key of
its own key value. -/
def Regular : Value → Prop
  | integer value => InRange value
  | array _ elements => ∀ element ∈ elements, element.isError = false
  | hash _ entries => (entries.map Prod.fst).Nodup ∧ ∀ entry ∈ entries, entry.2.isError = false ∧
      entry.1.toValue.key? = some entry.1 ∧ ∀ number, entry.1 = .integer number → InRange number
  | returned _ value => value.isError = false
  | _ => True

def Allowed (part : Value) : Prop := part.Regular ∧ ∀ body ∈ part.body?, body.wellFormed = true

abbrev Whole (value : Value) : Prop := value.MadeOf Allowed

def Short (value : Value) : Prop := ∀ part ∈ value.parts, part.extent < 0x8000000000000000

instance (value : Value) : Decidable value.Short := inferInstanceAs (Decidable (∀ _ ∈ _, _))

/-- What may be stored: a whole value that is no error. -/
structure Stored (value : Value) : Prop where
  whole : value.Whole
  proper : value.isError = false

variable {value : Value}

theorem stored_integer {value : Int} (range : InRange value) : (integer value).Stored :=
  ⟨madeOf_iff.mpr ⟨⟨range, nofun⟩, nofun⟩, rfl⟩

theorem stored_computed (computed : value.Computed) : value.Stored := by
  constructor
  · refine madeOf_computed computed ?_
    cases computed with
    | word value => exact ⟨wrap_inRange value, nofun⟩
    | _ => exact ⟨trivial, nofun⟩
  · cases computed <;> rfl

theorem whole_error (reason : Fault) : (error reason).Whole := madeOf_iff.mpr ⟨⟨trivial, nofun⟩, nofun⟩

theorem stored_function {identity : Identity} {parameters : List Name} {body : Node} {home : ScopeId}
    (formed : body.wellFormed = true) : (function identity parameters body home).Stored :=
  ⟨madeOf_iff.mpr ⟨⟨trivial, fun _ same => Option.some.inj same ▸ formed⟩, nofun⟩, rfl⟩

theorem stored_array {identity : Identity} {elements : List Value}
    (stored : ∀ element ∈ elements, element.Stored) : (array identity elements).Stored :=
  ⟨madeOf_iff.mpr ⟨⟨fun element member => (stored element member).proper, nofun⟩,
    fun element member => (stored element member).whole⟩, rfl⟩

theorem stored_returned {identity : Identity} (stored : value.Stored) : (returned identity value).Stored :=
  ⟨madeOf_iff.mpr ⟨⟨stored.proper, nofun⟩, List.forall_mem_singleton.mpr stored.whole⟩, rfl⟩

theorem Stored.contents (stored : value.Stored) : ∀ inner ∈ value.contents, inner.Stored := by
  intro inner member
  refine ⟨stored.whole.inside inner member, ?_⟩
  have regular := stored.whole.own.1
  cases value with
  | array identity elements => exact regular inner member
  | hash identity entries =>
      rcases List.mem_map.mp member with ⟨entry, own, rfl⟩
      exact (regular.2 entry own).1
  | returned identity value => exact List.mem_singleton.mp member ▸ regular
  | _ => cases member

theorem Short.extent (short : value.Short) : InRange value.extent := by
  have fewer : value.extent < 0x8000000000000000 := short value value.parts_self
  constructor <;> omega

end Value

namespace Entries

variable {entries : Entries} {key : Key} {value : Value}

structure Whole (entries : Entries) : Prop where
  distinct : (entries.map Prod.fst).Nodup
  stored : ∀ entry ∈ entries, entry.2.Stored
  own : ∀ entry ∈ entries, entry.1.toValue.key? = some entry.1 ∧
    ∀ number, entry.1 = .integer number → InRange number

theorem whole_nil : Whole [] := ⟨List.nodup_nil, nofun, nofun⟩

theorem Whole.write (whole : Whole entries) (keyed : key.toValue.Stored) (stored : value.Stored) :
    Whole (Table.write key value entries) := by
  have own : key.toValue.key? = some key := by
    cases key <;> rfl
  have range : ∀ number, key = .integer number → InRange number := by
    rintro number rfl
    exact keyed.whole.own.1
  refine ⟨Table.nodup_write whole.distinct, ?_, ?_⟩
  · intro entry member
    rcases Table.mem_write member with rfl | old
    · exact stored
    · exact whole.stored entry old
  · intro entry member
    rcases Table.mem_write member with rfl | old
    · exact ⟨own, range⟩
    · exact whole.own entry old

theorem Whole.hash (whole : Whole entries) (identity : Identity) : (Value.hash identity entries).Stored := by
  refine ⟨Value.madeOf_iff.mpr ⟨⟨⟨whole.distinct, fun entry member => ?_⟩, nofun⟩, ?_⟩, rfl⟩
  · exact ⟨(whole.stored entry member).proper, whole.own entry member⟩
  · exact List.forall_mem_map.mpr fun entry member => (whole.stored entry member).whole

end Entries

end Marmoset
