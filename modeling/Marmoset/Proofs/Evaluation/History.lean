import Mathlib.Data.List.Induction
import Marmoset.Proofs.Evaluation.Store

/-!
Histories: the acts that lead from the empty machine to a state. A history knows a value when the scopes
that it captures are there and every identity in it was given to the very part that carries it. In a lawful
history only known values are bound and given, and new ones are made out of these; so whatever is found in
its state is known. Evaluation keeps histories lawful, hence every history that comes about is.
-/

namespace Marmoset

open Machine Evaluation

def Act.made? : Act → Option Value
  | made value => some value
  | _ => none

def makings (history : List Act) : List Value := history.filterMap Act.made?

namespace Value

/-- The scope that the value captures is there, and its identity was given to it. -/
def Familiar (history : List Act) (value : Value) : Prop :=
  (∀ home ∈ value.home?, home < (after history).scopes.size) ∧
    ∀ identity ∈ value.identity?, (makings history)[identity]? = some value

def Known (history : List Act) (value : Value) : Prop := value.MadeOf (Familiar history)

end Value

/-- What an act takes for granted: it names scopes that are there and values that are known, and a new value
takes the next identity. -/
def Admits (history : List Act) : Act → Prop
  | .added outer => ∀ id ∈ outer, id < (after history).scopes.size
  | .bound scope _ value => scope < (after history).scopes.size ∧ value.Known history
  | .made value => value.identity? = some (after history).next ∧ value.Known (history ++ [.made value])
  | .entered _ scope _ => scope < (after history).scopes.size
  | .left result => ∀ value, result = .ok value → value.Known history
  | .printed _ | .taken => True

/-- The histories that can come about: by acts from outside, by evaluating in a scope and by calling; and
all that was done up to some moment of such a history. -/
inductive Arises : List Act → Prop
  | nothing : Arises []
  | performed {history : List Act} {act : Act} (before : Arises history) (admitted : Admits history act) :
      Arises (history ++ [act])
  | evaluated {history : List Act} {scope : ScopeId} (before : Arises history)
      (inside : scope < (after history).scopes.size) (frames : Nat) (node : Node) :
      Arises (history ++ (chronicle frames scope node (after history)).acts)
  | called {history : List Act} {callee : Value} {arguments : List Value} (before : Arises history)
      (known : ∀ value ∈ callee :: arguments, value.Known history) (frames : Nat) :
      Arises (history ++ (callChronicle frames callee arguments (after history)).acts)
  | interrupted {history moment : List Act} (before : Arises history) (early : moment <+: history) :
      Arises moment

/-- The values that are there: those that a scope binds and those that were made or given so far, with all
their parts. -/
def Present (history : List Act) (value : Value) : Prop :=
  ∃ whole, value ∈ whole.parts ∧
    ((∃ (id : ScopeId) (scope : Scope) (name : String), (after history).scopes[id]? = some scope ∧
        (name, whole) ∈ scope.bindings) ∨ .made whole ∈ history ∨ .left (.ok whole) ∈ history)

section Growth

variable {history later : List Act} {value : Value}

theorem Machine.after_grows (early : history <+: later) : (after history).Grows (after later) := by
  rcases early with ⟨acts, rfl⟩
  rw [after_append]
  exact (after history).replay_grows acts

theorem Machine.after_next (history : List Act) : (after history).next = (makings history).length := by
  induction history using List.reverseRecOn with
  | nil => rfl
  | append_singleton history act ih =>
      rw [after_concat, makings, List.filterMap_append, List.length_append]
      cases act with
      | made value => exact congrArg (· + 1) ih
      | _ => exact ih

theorem makings_made (history : List Act) (value : Value) :
    (makings (history ++ [.made value]))[(after history).next]? = some value := by
  rw [makings, List.filterMap_append, after_next]
  exact List.getElem?_concat_length

namespace Value

theorem Familiar.grown (familiar : value.Familiar history) (early : history <+: later) :
    value.Familiar later := by
  constructor
  · exact fun home captured => Nat.lt_of_lt_of_le (familiar.1 home captured) (after_grows early).scopes
  · intro identity own
    have made := familiar.2 identity own
    have begun : makings history <+: makings later := early.filterMap Act.made?
    rcases begun with ⟨others, all⟩
    rw [← all, List.getElem?_append_left (List.getElem?_eq_some_iff.mp made).1]
    exact made

theorem Known.grown (known : value.Known history) (early : history <+: later) : value.Known later :=
  fun part inside => (known part inside).grown early

theorem known_integer (number : Int) : (integer number).Known history :=
  madeOf_iff.mpr ⟨⟨nofun, nofun⟩, nofun⟩

theorem known_error (fault : Fault) : (error fault).Known history :=
  madeOf_iff.mpr ⟨⟨nofun, nofun⟩, nofun⟩

theorem known_computed (computed : value.Computed) : value.Known history := by
  refine madeOf_computed computed ?_
  cases computed <;> exact ⟨nofun, nofun⟩

end Value

end Growth

section Making

variable {history : List Act}

theorem Value.familiar_made {value : Value} (own : value.identity? = some (after history).next)
    (captured : ∀ home ∈ value.home?, home < (after history).scopes.size) :
    value.Familiar (history ++ [.made value]) := by
  constructor
  · exact fun home there => Nat.lt_of_lt_of_le (captured home there) (after_grows (List.prefix_append ..)).scopes
  · intro identity same
    rw [Option.mem_def, own] at same
    cases same
    exact makings_made history value

theorem admits_made {content : Content}
    (captured : ∀ home ∈ (content.carrying (after history).next).home?, home < (after history).scopes.size)
    (inside : ∀ inner ∈ (content.carrying (after history).next).contents, inner.Known history) :
    Admits history (.made (content.carrying (after history).next)) := by
  have own : (content.carrying (after history).next).identity? = some (after history).next := by
    cases content <;> rfl
  refine ⟨own, Value.madeOf_iff.mpr ⟨Value.familiar_made own captured, fun inner member => ?_⟩⟩
  exact (inside inner member).grown (List.prefix_append ..)

end Making

/-- Every act of the history was admitted when it was done. -/
def Lawful (history : List Act) : Prop :=
  ∀ earlier act, earlier ++ [act] <+: history → Admits earlier act

section Lawful

variable {history moment : List Act}

theorem lawful_nil : Lawful [] := by
  intro earlier act early
  cases List.append_eq_nil_iff.mp (List.prefix_nil.mp early) |>.2

theorem lawful_concat {act : Act} :
    Lawful (history ++ [act]) ↔ Lawful history ∧ Admits history act := by
  constructor
  · intro lawful
    exact ⟨fun earlier other early => lawful earlier other (early.trans (List.prefix_append ..)),
      lawful history act (List.prefix_refl _)⟩
  · rintro ⟨lawful, admitted⟩ earlier other early
    rcases List.prefix_concat_iff.mp early with whole | inside
    · rcases List.append_inj' whole rfl with ⟨rfl, same⟩
      cases same
      exact admitted
    · exact lawful earlier other inside

theorem Lawful.front (lawful : Lawful history) (early : moment <+: history) : Lawful moment :=
  fun earlier act inside => lawful earlier act (inside.trans early)

theorem Lawful.admitted (lawful : Lawful history) {act : Act} (member : act ∈ history) :
    ∃ earlier, earlier ++ [act] <+: history ∧ Admits earlier act := by
  rcases List.append_of_mem member with ⟨earlier, later, rfl⟩
  have early : earlier ++ [act] <+: earlier ++ act :: later := ⟨later, by simp⟩
  exact ⟨earlier, early, lawful earlier act early⟩

theorem Machine.after_bound {id : ScopeId} {scope : Scope}
    (there : (after history).scopes[id]? = some scope) :
    ∀ binding ∈ scope.bindings, ∃ own, .bound own binding.1 binding.2 ∈ history := by
  induction history using List.reverseRecOn generalizing scope with
  | nil => cases there
  | append_singleton history act ih =>
      intro binding bound
      rw [after_concat] at there
      have before {scope : Scope} (there : (after history).scopes[id]? = some scope)
          (bound : binding ∈ scope.bindings) :
          ∃ own, Act.bound own binding.1 binding.2 ∈ history ++ [act] := by
        rcases ih there binding bound with ⟨own, member⟩
        exact ⟨own, List.mem_append_left _ member⟩
      cases act with
      | added outer =>
          rcases scope_of_addScope there with ⟨-, rfl⟩ | old
          · cases bound
          · exact before old bound
      | bound own name value =>
          rcases scope_of_bind there with ⟨scope, old, -, bindings⟩
          rcases bindings binding bound with rfl | earlier
          · exact ⟨own, List.mem_concat_self⟩
          · exact before old earlier
      | _ => exact before there bound

theorem Lawful.known (lawful : Lawful history) {id : ScopeId} {scope : Scope} {name : String}
    {value : Value} (there : (after history).scopes[id]? = some scope)
    (bound : (name, value) ∈ scope.bindings) : value.Known history := by
  rcases after_bound there _ bound with ⟨own, member⟩
  rcases lawful.admitted member with ⟨earlier, early, -, known⟩
  exact known.grown ((List.prefix_append ..).trans early)

theorem Lawful.lookup (lawful : Lawful history) {scope : ScopeId} {name : String} {value : Value}
    (found : (after history).lookup scope name = some value) : value.Known history := by
  rcases search_bound found with ⟨id, scope, there, bound⟩
  exact lawful.known there bound

theorem Lawful.present (lawful : Lawful history) {value : Value} (present : Present history value) :
    value.Familiar history := by
  rcases present with ⟨whole, part, ⟨id, scope, name, there, bound⟩ | made | given⟩
  · exact lawful.known there bound value part
  · rcases lawful.admitted made with ⟨earlier, early, -, known⟩
    exact known.grown early value part
  · rcases lawful.admitted given with ⟨earlier, early, known⟩
    exact (known whole rfl).grown ((List.prefix_append ..).trans early) value part

end Lawful

namespace Evaluation

def recording : Invariant where
  World := List Act
  perform history act := history ++ [act]
  machine history machine := machine = after history ∧ Lawful history
  scope history own := own < (after history).scopes.size
  value history value := value.Known history
  node history own _ := own < (after history).scopes.size
  body _ := True
  writes history own _ := own < (after history).scopes.size
  quiet _ := True
  marked := True
  reaches _ := True
  granted _ := True
  permits := Admits

theorem recording_after (history acts : List Act) : recording.after history acts = history ++ acts := by
  induction acts generalizing history with
  | nil => exact (List.append_nil history).symm
  | cons act acts ih => rw [List.append_cons]; exact ih (history ++ [act])

theorem scope_kept {history : List Act} {scope : ScopeId} (act : Act)
    (inside : scope < (after history).scopes.size) : scope < (after (history ++ [act])).scopes.size :=
  Nat.lt_of_lt_of_le inside (after_grows (List.prefix_append ..)).scopes

theorem added_size (history : List Act) (outer : Option ScopeId) :
    (after history).scopes.size < (after (history ++ [.added outer])).scopes.size := by
  rw [after_concat, perform, addScope, Array.size_push]
  exact Nat.lt_succ_self _

/-- An act that is admitted continues a lawful history. -/
theorem recording_moves {history : List Act} {machine : Machine} {act : Act}
    (held : recording.machine history machine) (admitted : Admits history act) :
    recording.Moves history machine act := by
  rcases held with ⟨rfl, lawful⟩
  exact ⟨admitted, (after_concat history act).symm, lawful_concat.mpr ⟨lawful, admitted⟩⟩

theorem recording_closed : recording.Closed where
  value_kept act known := Value.Known.grown known (List.prefix_append ..)
  node_kept := scope_kept
  writes_kept := scope_kept
  node_scope := id
  operand inside _ := ⟨inside, trivial⟩
  tail inside _ := ⟨inside, fun _ => trivial⟩
  program inside _ := inside
  function _ := trivial
  binding := id
  integer _ := Value.known_integer _
  returning _ _ := trivial
  foreign _ := trivial
  contents := Value.MadeOf.inside
  captured known := ⟨trivial, known.own.1 _ rfl⟩
  computed := Value.known_computed
  counted _ _ := Value.known_integer _
  found name held _ value found := by
    rcases held with ⟨rfl, lawful⟩
    exact lawful.lookup found
  added {history machine home} held inside := by
    have moves : recording.Moves history machine (.added (some home)) :=
      recording_moves held fun id same => Option.some.inj same ▸ inside
    rcases held with ⟨rfl, lawful⟩
    exact ⟨moves, fun _ => added_size _ _, fun _ => added_size _ _⟩
  bound held writes known := recording_moves held ⟨writes, known⟩
  made held contents := by
    rcases held with ⟨rfl, lawful⟩
    have admitted := admits_made (contents.captured _) (contents.inside _)
    exact ⟨recording_moves ⟨rfl, lawful⟩ admitted, fun _ => admitted.2⟩
  printed text held := recording_moves held trivial
  entered _ held inside := recording_moves held inside
  left held gives := by
    refine recording_moves held fun value same => ?_
    cases gives value same with
    | error fault => exact Value.known_error fault
    | value known => exact known
    | returned unmarked => exact absurd trivial unmarked

end Evaluation

/-- Whatever comes about is lawful. -/
theorem Arises.lawful {history : List Act} (arises : Arises history) : Lawful history := by
  induction arises with
  | nothing => exact lawful_nil
  | performed before admitted ih => exact lawful_concat.mpr ⟨ih, admitted⟩
  | @evaluated history scope before inside frames node ih =>
      have tells := recording_closed.evaluation history frames scope node inside ⟨rfl, ih⟩ fun _ _ => trivial
      exact recording_after history _ ▸ tells.machine.2
  | @called history callee arguments before known frames ih =>
      have good : ∀ value ∈ callee :: arguments, value.Known history ∧ True :=
        fun value member => ⟨known value member, trivial⟩
      have tells := recording_closed.call history frames good ⟨rfl, ih⟩ fun _ _ => trivial
      exact recording_after history _ ▸ tells.machine.2
  | interrupted before early ih => exact ih.front early

end Marmoset
