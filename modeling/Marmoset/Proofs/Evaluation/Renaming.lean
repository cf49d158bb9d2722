import Marmoset.Proofs.Evaluation.Lockstep
import Marmoset.Proofs.Value.Likeness

/-!
Evaluation of one node side by side, on machines that need not hold the same scopes. Scopes of the one stand
for scopes of the other: those that both had at the beginning for themselves, and each new one for the one
made at the same time. As long as evaluation begins in scopes that stand for each other, it only ever
reads such scopes.
-/

namespace Marmoset

/-- Where two runs begin, and the scopes that both of them may read there. -/
structure Start where
  first : Machine
  second : Machine
  shared : ScopeId → Prop

namespace Start

variable (start : Start)

/-- The scopes that stand for each other once a number of new ones is made: shared ones for themselves,
and new ones in the order in which they are made. -/
def Scopes (made : Nat) (home away : Nat) : Prop :=
  (home = away ∧ start.shared home ∧ home < start.first.scopes.size ∧
      home < start.second.scopes.size) ∨
    ∃ new < made, home = start.first.scopes.size + new ∧ away = start.second.scopes.size + new

/-- The identities that stand for each other: old ones for themselves, and new ones in the order in
which they are given out. -/
def Identities (own other : Nat) : Prop :=
  (own = other ∧ own < start.first.next ∧ own < start.second.next) ∨
    ∃ new, own = start.first.next + new ∧ other = start.second.next + new

def Values (made : Nat) : Value → Value → Prop :=
  Value.Alike (start.Scopes made) start.Identities

structure Match (made : Nat) (home away : Nat) (scope other : Scope) : Prop where
  bindings : Keyed (start.Values made) scope.bindings other.bindings
  outer : scope.outer = none ∧ other.outer = none ∨
    ∃ outside beyond : Nat, scope.outer = some outside ∧ other.outer = some beyond ∧
      start.Scopes made outside beyond ∧ outside < home ∧ beyond < away

structure Holds (made : Nat) (left right : Machine) : Prop where
  made_left : left.scopes.size = start.first.scopes.size + made
  made_right : right.scopes.size = start.second.scopes.size + made
  identities : ∃ new, left.next = start.first.next + new ∧ right.next = start.second.next + new
  printed : ∃ text, left.printed = start.first.printed ++ text ∧
    right.printed = start.second.printed ++ text
  scopes : ∀ home away, start.Scopes made home away → ∃ scope other,
    left.scopes[home]? = some scope ∧ right.scopes[away]? = some other ∧
      start.Match made home away scope other

variable {start} {made later : Nat} {home away : Nat} {left right : Machine}

theorem Scopes.mono (alike : start.Scopes made home away) (more : made ≤ later) :
    start.Scopes later home away := by
  rcases alike with shared | ⟨new, below, numbers⟩
  · exact .inl shared
  · exact .inr ⟨new, Nat.lt_of_lt_of_le below more, numbers⟩

theorem values_mono {value other : Value} (alike : start.Values made value other)
    (more : made ≤ later) : start.Values later value other :=
  alike.mono fun _ _ scopes => scopes.mono more

theorem Match.mono {scope other : Scope} (alike : start.Match made home away scope other)
    (more : made ≤ later) : start.Match later home away scope other := by
  constructor
  · exact alike.bindings.imp fun _ _ inside => values_mono inside more
  · rcases alike.outer with none | ⟨outside, beyond, there, there', related, older⟩
    · exact .inl none
    · exact .inr ⟨outside, beyond, there, there', related.mono more, older⟩

theorem identities_apart : Value.OneToOne start.Identities := by
  intro a b c d first second
  rcases first with ⟨same, inside⟩ | ⟨new, numbers⟩
  · rcases second with ⟨same', inside'⟩ | ⟨new', numbers'⟩ <;> omega
  · rcases second with ⟨same', inside'⟩ | ⟨new', numbers'⟩ <;> omega

theorem scopes_apart : Value.OneToOne (start.Scopes made) := by
  intro a b c d first second
  rcases first with ⟨same, -, inside⟩ | ⟨new, -, numbers⟩
  · rcases second with ⟨same', -, inside'⟩ | ⟨new', -, numbers'⟩ <;> omega
  · rcases second with ⟨same', -, inside'⟩ | ⟨new', -, numbers'⟩ <;> omega

theorem Holds.search (holds : start.Holds made left right) (name : String) {steps others : Nat}
    (alike : start.Scopes made home away) (enough : home < steps) (enough' : away < others) :
    Option.Rel (start.Values made) (left.search name steps home)
      (right.search name others away) := by
  induction steps generalizing home away others with
  | zero => exact absurd enough (Nat.not_lt_zero home)
  | succ steps ih =>
      cases others with
      | zero => exact absurd enough' (Nat.not_lt_zero away)
      | succ others =>
          rcases holds.scopes home away alike with ⟨scope, other, there, there', alike⟩
          simp only [Machine.search, there, there']
          have found := alike.bindings.find? name
          revert found
          rcases Table.find? name scope.bindings with _ | value <;>
            rcases Table.find? name other.bindings with _ | value' <;> intro found
          · rcases alike.outer with ⟨none, none'⟩ | ⟨outside, beyond, there, there', related, older, older'⟩
            · simp only [none, none']
              exact .none
            · simp only [there, there']
              exact ih related (by omega) (by omega)
          · cases found
          · cases found
          · exact found

theorem Holds.bind (holds : start.Holds made left right) (name : String) {value other : Value}
    (alike : start.Scopes made home away) (values : start.Values made value other) :
    start.Holds made (left.bind home name value) (right.bind away name other) := by
  refine ⟨?_, ?_, holds.identities, holds.printed, ?_⟩
  · simpa [Machine.bind] using holds.made_left
  · simpa [Machine.bind] using holds.made_right
  · intro own own' related
    rcases holds.scopes own own' related with ⟨scope, scope', there, there', inside⟩
    simp only [Machine.bind, Array.getElem?_modify, there, there', scopes_apart alike related]
    by_cases written : home = own
    · simp only [written, if_true, Option.map_some]
      exact ⟨_, _, rfl, rfl, inside.bindings.write name values, inside.outer⟩
    · simp only [written, if_false]
      exact ⟨scope, scope', rfl, rfl, inside⟩

theorem Holds.addScope (holds : start.Holds made left right)
    (alike : start.Scopes made home away) :
    start.Holds (made + 1) (left.addScope (some home)).2 (right.addScope (some away)).2 := by
  have more : made ≤ made + 1 := Nat.le_succ made
  refine ⟨?_, ?_, holds.identities, holds.printed, ?_⟩
  · simp [Machine.addScope, holds.made_left, Nat.add_assoc]
  · simp [Machine.addScope, holds.made_right, Nat.add_assoc]
  · intro own own' related
    simp only [Machine.addScope, Array.getElem?_push, holds.made_left, holds.made_right]
    have inside : ∀ {own own'}, start.Scopes made own own' →
        own < start.first.scopes.size + made ∧ own' < start.second.scopes.size + made := by
      rintro own own' (⟨same, -, old⟩ | ⟨new, below, numbers⟩) <;> omega
    by_cases new : own = start.first.scopes.size + made
    · have new' : own' = start.second.scopes.size + made := by
        rcases related with ⟨same, -, old⟩ | ⟨number, -, numbers⟩ <;> omega
      subst new new'
      refine ⟨⟨[], some home⟩, ⟨[], some away⟩, if_pos rfl, if_pos rfl, .nil, ?_⟩
      exact .inr ⟨home, away, rfl, rfl, alike.mono more, inside alike⟩
    · have before : start.Scopes made own own' := by
        rcases related with shared | ⟨number, below, numbers⟩
        · exact .inl shared
        · exact .inr ⟨number, by omega, numbers⟩
      have below := inside before
      rcases holds.scopes own own' before with ⟨scope, scope', there, there', matched⟩
      refine ⟨scope, scope', ?_, ?_, matched.mono more⟩
      · rw [if_neg new]
        exact there
      · rw [if_neg (by omega)]
        exact there'

theorem Holds.new (holds : start.Holds made left right) :
    start.Scopes (made + 1) left.scopes.size right.scopes.size :=
  .inr ⟨made, Nat.lt_succ_self made, holds.made_left, holds.made_right⟩

theorem Holds.freshIdentity (holds : start.Holds made left right) :
    start.Holds made left.freshIdentity.2 right.freshIdentity.2 := by
  rcases holds.identities with ⟨new, numbers⟩
  refine ⟨holds.made_left, holds.made_right, ⟨new + 1, ?_⟩, holds.printed, holds.scopes⟩
  simp only [Machine.freshIdentity, numbers, Nat.add_assoc, and_self]

theorem Holds.print (holds : start.Holds made left right) (text : String) :
    start.Holds made (left.print text) (right.print text) := by
  rcases holds.printed with ⟨before, printed, printed'⟩
  refine ⟨holds.made_left, holds.made_right, holds.identities, ⟨before ++ text, ?_⟩, holds.scopes⟩
  simp only [Machine.print, printed, printed', String.append_assoc, and_self]

/-- Two runs do the same up to the numbers of scopes and the identities of values. The world counts the
scopes that were made. -/
def renumbering (start : Start) : Simulation where
  World := Nat
  perform made
    | .added _ => made + 1
    | _ => made
  machine := start.Holds
  scope := start.Scopes
  value := start.Values
  node made home away node other := node = other ∧ start.Scopes made home away
  function parameters own names away := parameters = names ∧ own = away
  writes made home away _ := start.Scopes made home away
  quiet _ := True
  marked := True
  reaches _ := True
  granted _ := True
  permits _ _ _ := True

theorem made_le (made : Nat) (act : Act) : made ≤ start.renumbering.perform made act := by
  cases act with
  | added outer => exact Nat.le_succ made
  | _ => exact Nat.le_refl made

theorem renumbering_closed (start : Start) : start.renumbering.Closed where
  value_kept act alike := values_mono alike (made_le _ act)
  node_kept act alike := ⟨alike.1, alike.2.mono (made_le _ act)⟩
  writes_kept act alike := alike.mono (made_le _ act)
  node_scope alike := alike.2
  node_twin := by
    rintro made home away node other ⟨rfl, alike⟩
    refine Node.twin_self (fun _ _ => ⟨⟨rfl, alike⟩, trivial⟩) (fun _ _ => ⟨⟨rfl, alike⟩, fun _ => trivial⟩) ?_ ?_
    · exact fun _ _ _ _ => ⟨rfl, alike⟩
    · exact fun _ _ _ _ => ⟨rfl, rfl⟩
  binding alike := alike.2
  integer _ := .integer _
  returning _ _ := trivial
  foreign _ := trivial
  value_twin alike := alike.twin
  named same := congrArg (List.map Name.text) same.1
  identical first second := first.identical identities_apart second
  computed {_ value} computed := by
    cases computed with
    | null => exact .null
    | boolean value => exact .boolean value
    | string value => exact .string value
    | builtin builtin => exact .builtin builtin
    | word value => exact .integer _
  counted _ _ := .integer _
  inspect alike := alike.inspect
  inspectFrames alike := alike.inspectFrames
  found {_ _ _ home away} name held alike :=
    held.search name alike (Nat.lt_succ_self home) (Nat.lt_succ_self away)
  added held alike :=
    ⟨⟨trivial, held.addScope alike⟩, fun _ => held.new, fun same => ⟨same.2, held.new⟩⟩
  bound held writes values := ⟨trivial, held.bind _ writes values⟩
  made {_ _ _ content content'} held contents := by
    rcases held.identities with ⟨new, numbers⟩
    refine ⟨⟨trivial, held.freshIdentity⟩, fun _ => ?_⟩
    have same : start.Identities _ _ := .inr ⟨new, numbers⟩
    cases contents with
    | array inside => exact .array same inside
    | hash written => exact .hash same written.keyed
    | function alike captured =>
        rcases alike with ⟨rfl, rfl⟩
        exact .function _ _ same captured
    | returned inside => exact .returned same inside
  printed text held := ⟨trivial, held.print text⟩
  entered _ held _ := ⟨trivial, held⟩
  left held _ := ⟨trivial, held⟩

theorem results_of_ends {made : Nat} {result other : Except Stop Value}
    (ends : start.renumbering.Ends (start.renumbering.Gives made True) result other) :
    Results (start.Values made) result other := by
  cases ends with
  | exhausted => exact .error _
  | unknownNode reached => exact .error _
  | ok gives =>
      cases gives with
      | error fault => exact .ok (.error fault)
      | value alike => exact .ok alike
      | returned _ loud alike => exact absurd trivial loud

end Start

end Marmoset
