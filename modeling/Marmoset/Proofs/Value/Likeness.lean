import Marmoset.Proofs.Value.Parts

/-!
Values that are alike up to the numbers of scopes and the identities in them. What a program can
learn of a value (its type, its truth, its text, its elements, whether it is the same as another one)
does not depend on those numbers, as long as different identities stay different.
-/

namespace Marmoset

namespace Value

/-- The same value, with other numbers for scopes and other identities. -/
inductive Alike (scopes : ScopeId → ScopeId → Prop) (identities : Identity → Identity → Prop) :
    Value → Value → Prop
  | integer (value : Int) : Alike scopes identities (.integer value) (.integer value)
  | boolean (value : Bool) : Alike scopes identities (.boolean value) (.boolean value)
  | string (value : String) : Alike scopes identities (.string value) (.string value)
  | null : Alike scopes identities .null .null
  | array {identity other : Identity} {elements others : List Value}
      (same : identities identity other)
      (inside : List.Forall₂ (Alike scopes identities) elements others) :
      Alike scopes identities (.array identity elements) (.array other others)
  | hash {identity other : Identity} {entries others : Entries}
      (same : identities identity other) (inside : Keyed (Alike scopes identities) entries others) :
      Alike scopes identities (.hash identity entries) (.hash other others)
  | function {identity other : Identity} {home away : ScopeId} (parameters : List Name)
      (body : Node) (same : identities identity other) (captured : scopes home away) :
      Alike scopes identities (.function identity parameters body home)
        (.function other parameters body away)
  | builtin (builtin : Builtin) : Alike scopes identities (.builtin builtin) (.builtin builtin)
  | error (fault : Fault) : Alike scopes identities (.error fault) (.error fault)
  | returned {identity other : Identity} {value inner : Value} (same : identities identity other)
      (inside : Alike scopes identities value inner) :
      Alike scopes identities (.returned identity value) (.returned other inner)

variable {scopes wider : ScopeId → ScopeId → Prop} {identities : Identity → Identity → Prop}
  {value other : Value}

mutual

theorem Alike.mono (widened : ∀ home away, scopes home away → wider home away)
    {value other : Value} (alike : Alike scopes identities value other) :
    Alike wider identities value other := by
  cases alike with
  | integer value => exact .integer value
  | boolean value => exact .boolean value
  | string value => exact .string value
  | null => exact .null
  | array same inside => exact .array same (elements_mono widened inside)
  | hash same inside => exact .hash same (entries_mono widened inside)
  | function parameters body same captured =>
      exact .function parameters body same (widened _ _ captured)
  | builtin builtin => exact .builtin builtin
  | error fault => exact .error fault
  | returned same inside => exact .returned same (inside.mono widened)

theorem elements_mono (widened : ∀ home away, scopes home away → wider home away)
    {values others : List Value} (alike : List.Forall₂ (Alike scopes identities) values others) :
    List.Forall₂ (Alike wider identities) values others := by
  cases alike with
  | nil => exact .nil
  | cons head tail => exact .cons (head.mono widened) (elements_mono widened tail)

theorem entries_mono (widened : ∀ home away, scopes home away → wider home away)
    {entries others : Entries} (alike : Keyed (Alike scopes identities) entries others) :
    Keyed (Alike wider identities) entries others := by
  cases alike with
  | nil => exact .nil
  | cons key head tail => exact .cons key (head.mono widened) (entries_mono widened tail)

end

theorem Alike.twin (alike : Alike scopes identities value other) :
    value.Twin (Alike scopes identities) scopes
      (fun parameters own names away => parameters = names ∧ own = away) other := by
  cases alike with
  | integer value => exact .integer value
  | boolean value => exact .boolean value
  | string value => exact .string value
  | null => exact .null
  | array same inside => exact .array inside
  | hash same inside => exact .hash inside
  | function parameters body same captured => exact .function ⟨rfl, rfl⟩ captured
  | builtin builtin => exact .builtin builtin
  | error fault => exact .error fault
  | returned same inside => exact .returned inside

mutual

theorem Alike.inspect {value other : Value} (alike : Alike scopes identities value other) :
    other.inspect = value.inspect := by
  cases alike with
  | array same inside => simp only [Value.inspect, inspects_alike inside]
  | hash same inside => simp only [Value.inspect, inspectEntries_alike inside]
  | returned same inside => simp only [Value.inspect, inside.inspect]
  | _ => rfl

theorem inspects_alike {values others : List Value}
    (alike : List.Forall₂ (Alike scopes identities) values others) :
    inspects others = inspects values := by
  cases alike with
  | nil => rfl
  | cons head tail => simp only [inspects, head.inspect, inspects_alike tail]

theorem inspectEntries_alike {entries others : Entries}
    (alike : Keyed (Alike scopes identities) entries others) :
    inspectEntries others = inspectEntries entries := by
  cases alike with
  | nil => rfl
  | cons key head tail => simp only [inspectEntries, head.inspect, inspectEntries_alike tail]

end

mutual

theorem Alike.inspectFrames {value other : Value} (alike : Alike scopes identities value other) :
    other.inspectFrames = value.inspectFrames := by
  cases alike with
  | array same inside => simp only [Value.inspectFrames, inspectFramesAll_alike inside]
  | hash same inside => simp only [Value.inspectFrames, inspectFramesEntries_alike inside]
  | returned same inside => simp only [Value.inspectFrames, inside.inspectFrames]
  | _ => rfl

theorem inspectFramesAll_alike {values others : List Value}
    (alike : List.Forall₂ (Alike scopes identities) values others) :
    inspectFramesAll others = inspectFramesAll values := by
  cases alike with
  | nil => rfl
  | cons head tail => simp only [inspectFramesAll, head.inspectFrames, inspectFramesAll_alike tail]

theorem inspectFramesEntries_alike {entries others : Entries}
    (alike : Keyed (Alike scopes identities) entries others) :
    inspectFramesEntries others = inspectFramesEntries entries := by
  cases alike with
  | nil => rfl
  | cons key head tail =>
      simp only [inspectFramesEntries, head.inspectFrames, inspectFramesEntries_alike tail]

end

def OneToOne (related : Nat → Nat → Prop) : Prop :=
  ∀ {a b c d : Nat}, related a b → related c d → (b = d ↔ a = c)

theorem Alike.identical (apart : OneToOne identities) {left right left' right' : Value}
    (first : Alike scopes identities left left') (second : Alike scopes identities right right') :
    left'.identical right' = left.identical right := by
  cases first with
  | array same _ => cases second with
      | array same' _ => simp only [Value.identical, apart same same']
      | _ => rfl
  | hash same _ => cases second with
      | hash same' _ => simp only [Value.identical, apart same same']
      | _ => rfl
  | function _ _ same _ => cases second with
      | function _ _ same' _ => simp only [Value.identical, apart same same']
      | _ => rfl
  | returned same _ => cases second with
      | returned same' _ => simp only [Value.identical, apart same same']
      | _ => rfl
  | _ => cases second <;> rfl

section Reflexive

variable {scopes : ScopeId → ScopeId → Prop} {identities : Identity → Identity → Prop}

def Fixed (scopes : ScopeId → ScopeId → Prop) (identities : Identity → Identity → Prop)
    (value : Value) : Prop :=
  (∀ home ∈ value.home?, scopes home home) ∧
    ∀ identity ∈ value.identity?, identities identity identity

mutual

theorem alike_self (value : Value)
    (fixed : ∀ part ∈ value.parts, Fixed scopes identities part) :
    Alike scopes identities value value := by
  cases value with
  | integer value => exact .integer value
  | boolean value => exact .boolean value
  | string value => exact .string value
  | null => exact .null
  | builtin builtin => exact .builtin builtin
  | error fault => exact .error fault
  | function identity parameters body home =>
      rcases fixed _ List.mem_cons_self with ⟨scope, same⟩
      exact .function parameters body (same identity rfl) (scope home rfl)
  | array identity elements =>
      rcases List.forall_mem_cons.mp fixed with ⟨own, inside⟩
      exact .array (own.2 identity rfl) (alikeAll_self elements inside)
  | hash identity entries =>
      rcases List.forall_mem_cons.mp fixed with ⟨own, inside⟩
      exact .hash (own.2 identity rfl) (alikeEntries_self entries inside)
  | returned identity value =>
      rcases List.forall_mem_cons.mp fixed with ⟨own, inside⟩
      exact .returned (own.2 identity rfl) (alike_self value inside)

theorem alikeAll_self (values : List Value)
    (fixed : ∀ part ∈ partsAll values, Fixed scopes identities part) :
    List.Forall₂ (Alike scopes identities) values values := by
  cases values with
  | nil => exact .nil
  | cons value values =>
      rcases List.forall_mem_append.mp fixed with ⟨own, rest⟩
      exact .cons (alike_self value own) (alikeAll_self values rest)

theorem alikeEntries_self (entries : Entries)
    (fixed : ∀ part ∈ partsEntries entries, Fixed scopes identities part) :
    Keyed (Alike scopes identities) entries entries := by
  cases entries with
  | nil => exact .nil
  | cons entry entries =>
      rcases List.forall_mem_append.mp fixed with ⟨own, rest⟩
      exact .cons entry.1 (alike_self entry.2 own) (alikeEntries_self entries rest)

end

end Reflexive

end Value

end Marmoset
