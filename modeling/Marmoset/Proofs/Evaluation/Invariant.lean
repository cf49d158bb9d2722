import Marmoset.Proofs.Evaluation.Lockstep
import Marmoset.Proofs.Value.Parts

/-!
Invariants: what one evaluation keeps. An invariant is a simulation of evaluations by themselves, so it is
enough that it is closed under what single steps do.
-/

namespace Marmoset

structure Invariant where
  /-- What has been done so far, as far as the invariant speaks of it. -/
  World : Type
  perform : World → Act → World
  machine : World → Machine → Prop
  scope : World → ScopeId → Prop
  value : World → Value → Prop
  /-- Nodes that may be evaluated in a scope. -/
  node : World → ScopeId → Node → Prop
  /-- The bodies that functions may have. -/
  body : Node → Prop
  /-- The name may be bound in the scope. -/
  writes : World → ScopeId → String → Prop
  /-- The node leaves no return marker. -/
  quiet : Node → Prop
  /-- Return markers may stand where other values stand. -/
  marked : Prop
  /-- The leaf may be reached although it is no form of the language. -/
  reaches : Foreign → Prop
  /-- What is taken for granted of every value that an evaluation gives. -/
  granted : Value → Prop
  /-- What is to be known of the acts. -/
  permits : World → Act → Prop

namespace Invariant

variable (inv : Invariant)

/-- What the evaluation of a node gives: an error, a value, or a return marker if the node may leave one. -/
inductive Gives (world : inv.World) (quiet : Prop) : Value → Prop
  | error (fault : Fault) : Gives world quiet (.error fault)
  | value {value : Value} (good : inv.value world value) : Gives world quiet value
  | returned {identity : Identity} {value : Value} (unmarked : ¬ inv.marked) (loud : ¬ quiet)
      (good : inv.value world value) :
      Gives world quiet (.returned identity value)

inductive Written (world : inv.World) : Entries → Prop
  | none : Written world []
  | write {entries : Entries} {key : Key} {value : Value} (before : Written world entries)
      (keyed : inv.value world key.toValue) (good : inv.value world value) :
      Written world (Table.write key value entries)

inductive Contents (world : inv.World) : Content → Prop
  | array {elements : List Value} (inside : ∀ element ∈ elements, inv.value world element) :
      Contents world (.array elements)
  | hash {entries : Entries} (written : inv.Written world entries) : Contents world (.hash entries)
  | function {parameters : List Name} {body : Node} {home : ScopeId} (bodies : inv.body body)
      (captured : inv.scope world home) : Contents world (.function parameters body home)
  | returned {value : Value} (inside : inv.value world value) : Contents world (.returned value)

section Contents

variable {inv} {world : inv.World} {content : Content} (identity : Identity)

theorem Written.inside {entries : Entries} (written : inv.Written world entries) :
    ∀ entry ∈ entries, inv.value world entry.2 := by
  induction written with
  | none => exact nofun
  | write before keyed good ih =>
      intro entry member
      rcases Table.mem_write member with rfl | old
      · exact good
      · exact ih entry old

theorem Contents.inside (contents : inv.Contents world content) :
    ∀ inner ∈ (content.carrying identity).contents, inv.value world inner := by
  cases contents with
  | array inside => exact inside
  | hash written => exact List.forall_mem_map.mpr written.inside
  | function bodies captured => exact nofun
  | returned inside => exact List.forall_mem_singleton.mpr inside

theorem Contents.captured (contents : inv.Contents world content) :
    ∀ home ∈ (content.carrying identity).home?, inv.scope world home := by
  cases contents with
  | function bodies captured => exact fun home same => Option.some.inj same ▸ captured
  | _ => exact nofun

theorem Contents.bodies (contents : inv.Contents world content) :
    ∀ body ∈ (content.carrying identity).body?, inv.body body := by
  cases contents with
  | function bodies captured => exact fun body same => Option.some.inj same ▸ bodies
  | _ => exact nofun

end Contents

structure Moves (world : inv.World) (machine : Machine) (act : Act) : Prop where
  permitted : inv.permits world act
  machine : inv.machine (inv.perform world act) (machine.perform act)

/-- The relations of an invariant go together: they are kept as the world grows, they say of the parts of
nodes and values what they say of the whole, and they allow every act that is done. -/
structure Closed : Prop where
  value_kept : ∀ {world value} act, inv.value world value → inv.value (inv.perform world act) value
  node_kept : ∀ {world own node} act, inv.node world own node → inv.node (inv.perform world act) own node
  writes_kept : ∀ {world own name} act, inv.writes world own name →
    inv.writes (inv.perform world act) own name
  node_scope : ∀ {world own node}, inv.node world own node → inv.scope world own
  operand : ∀ {world own node inner}, inv.node world own node → inner ∈ node.operands →
    inv.node world own inner ∧ inv.quiet inner
  tail : ∀ {world own node inner}, inv.node world own node → inner ∈ node.tails →
    inv.node world own inner ∧ (inv.quiet node → inv.quiet inner)
  program : ∀ {world own statements inner}, inv.node world own (.program statements) → inner ∈ statements →
    inv.node world own inner
  function : ∀ {world own parameters body line}, inv.node world own (.function parameters body line) →
    inv.body body
  binding : ∀ {world own name inner line}, inv.node world own (.binding name inner line) →
    inv.writes world own name.text
  integer : ∀ {world own value line}, inv.node world own (.integer value line) →
    inv.value world (.integer value)
  returning : ∀ {world own inner line}, inv.node world own (.returning inner line) →
    inv.quiet (.returning inner line) → inv.marked
  foreign : ∀ {world own leaf}, inv.node world own (.foreign leaf) → inv.reaches leaf
  contents : ∀ {world value}, inv.value world value → ∀ inner ∈ value.contents, inv.value world inner
  captured : ∀ {world identity parameters body home}, inv.value world (.function identity parameters body home) →
    inv.body body ∧ inv.scope world home
  computed : ∀ {world value}, value.Computed → inv.value world value
  counted : ∀ {world value}, inv.value world value → inv.granted value →
    inv.value world (.integer value.extent)
  found : ∀ {world machine own} name, inv.machine world machine → inv.scope world own →
    ∀ value ∈ machine.lookup own name, inv.value world value
  added : ∀ {world machine home}, inv.machine world machine → inv.scope world home →
    inv.Moves world machine (.added (some home)) ∧
      (∀ name, inv.writes (inv.perform world (.added (some home))) machine.scopes.size name) ∧
      ∀ {body}, inv.body body → inv.node (inv.perform world (.added (some home))) machine.scopes.size body
  bound : ∀ {world machine own name value}, inv.machine world machine → inv.writes world own name →
    inv.value world value → inv.Moves world machine (.bound own name value)
  made : ∀ {world machine content}, inv.machine world machine → inv.Contents world content →
    let value := content.carrying machine.next
    inv.Moves world machine (.made value) ∧
      ((content.isMarker = true → inv.marked) → inv.value (inv.perform world (.made value)) value)
  printed : ∀ {world machine} text, inv.machine world machine → inv.Moves world machine (.printed text)
  entered : ∀ {world machine own node} frames, inv.machine world machine → inv.node world own node →
    inv.Moves world machine (.entered frames own node)
  left : ∀ {world machine result}, inv.machine world machine →
    (∀ value, result = .ok value → inv.Gives world False value) → inv.Moves world machine (.left result)

/-- An invariant as a simulation of evaluations by themselves. -/
def simulation : Simulation where
  World := inv.World
  perform := inv.perform
  machine world machine other := machine = other ∧ inv.machine world machine
  scope world own other := own = other ∧ inv.scope world own
  value world value other := value = other ∧ inv.value world value
  node world own other node away := (own = other ∧ node = away) ∧ inv.node world own node
  function parameters body names away := (parameters = names ∧ body = away) ∧ inv.body body
  writes world own other name := own = other ∧ inv.writes world own name
  quiet := inv.quiet
  marked := inv.marked
  reaches := inv.reaches
  granted := inv.granted
  permits world act _ := inv.permits world act

variable {inv} {world : inv.World}

theorem gives_of_simulation {quiet : Prop} {value other : Value}
    (gives : inv.simulation.Gives world quiet value other) : inv.Gives world quiet value := by
  cases gives with
  | error fault => exact .error fault
  | value alike => exact .value alike.2
  | returned unmarked loud alike => exact .returned unmarked loud alike.2

theorem written_of_simulation {entries others : Entries}
    (written : inv.simulation.Written world entries others) : entries = others ∧ inv.Written world entries := by
  induction written with
  | none => exact ⟨rfl, .none⟩
  | write before keyed alike ih =>
      rcases ih with ⟨rfl, ih⟩
      rcases alike with ⟨rfl, good⟩
      exact ⟨rfl, .write ih keyed.2 good⟩

theorem values_of_simulation {values others : List Value}
    (alike : List.Forall₂ (inv.simulation.value world) values others) :
    values = others ∧ ∀ value ∈ values, inv.value world value := by
  induction alike with
  | nil => exact ⟨rfl, nofun⟩
  | cons head tail ih =>
      rcases head with ⟨rfl, good⟩
      exact ⟨congrArg _ ih.1, List.forall_mem_cons.mpr ⟨good, ih.2⟩⟩

theorem contents_of_simulation {content other : Content}
    (contents : inv.simulation.Contents world content other) :
    content = other ∧ inv.Contents world content := by
  cases contents with
  | array inside =>
      rcases values_of_simulation inside with ⟨rfl, good⟩
      exact ⟨rfl, .array good⟩
  | hash written =>
      rcases written_of_simulation written with ⟨rfl, good⟩
      exact ⟨rfl, .hash good⟩
  | function alike captured =>
      rcases alike with ⟨⟨rfl, rfl⟩, bodies⟩
      rcases captured with ⟨rfl, inside⟩
      exact ⟨rfl, .function bodies inside⟩
  | returned inside =>
      rcases inside with ⟨rfl, good⟩
      exact ⟨rfl, .returned good⟩

theorem Moves.simulation {machine : Machine} {act : Act} (moves : inv.Moves world machine act) :
    inv.simulation.Moves world machine machine act act :=
  ⟨moves.permitted, rfl, moves.machine⟩

namespace Closed

variable (closed : inv.Closed)
include closed

theorem simulation : inv.simulation.Closed where
  value_kept act related := ⟨related.1, closed.value_kept act related.2⟩
  node_kept act related := ⟨related.1, closed.node_kept act related.2⟩
  writes_kept act related := ⟨related.1, closed.writes_kept act related.2⟩
  node_scope related := ⟨related.1.1, closed.node_scope related.2⟩
  node_twin := by
    rintro world own other node away ⟨⟨rfl, rfl⟩, asked⟩
    refine Node.twin_self (fun child member => ?_) (fun child member => ?_) ?_ ?_
    · have inside := closed.operand asked member
      exact ⟨⟨⟨rfl, rfl⟩, inside.1⟩, inside.2⟩
    · have inside := closed.tail asked member
      exact ⟨⟨⟨rfl, rfl⟩, inside.1⟩, inside.2⟩
    · rintro statements rfl child member
      exact ⟨⟨rfl, rfl⟩, closed.program asked member⟩
    · rintro parameters body line rfl
      exact ⟨⟨rfl, rfl⟩, closed.function asked⟩
  binding related := ⟨related.1.1, closed.binding related.2⟩
  integer related := ⟨rfl, closed.integer related.2⟩
  returning related silent := closed.returning related.2 silent
  foreign related := closed.foreign related.2
  value_twin := by
    rintro world value other ⟨rfl, good⟩
    refine Value.twin_self (fun inner member => ⟨rfl, closed.contents good inner member⟩) ?_
    rintro identity parameters body home rfl
    have own := closed.captured good
    exact ⟨⟨⟨rfl, rfl⟩, own.1⟩, rfl, own.2⟩
  named := by
    rintro parameters body names away ⟨⟨rfl, rfl⟩, -⟩
    rfl
  identical := by
    rintro world first second first' second' ⟨rfl, -⟩ ⟨rfl, -⟩
    rfl
  computed computed := ⟨rfl, closed.computed computed⟩
  counted related granted := ⟨rfl, closed.counted related.2 granted⟩
  inspect related := congrArg Value.inspect related.1.symm
  inspectFrames related := congrArg Value.inspectFrames related.1.symm
  found := by
    rintro world machine other own away name ⟨rfl, held⟩ ⟨rfl, inside⟩
    have good := closed.found name held inside
    cases found : machine.lookup own name with
    | none => exact .none
    | some value => exact .some ⟨rfl, good value found⟩
  added := by
    rintro world machine other home away ⟨rfl, held⟩ ⟨rfl, inside⟩
    rcases closed.added held inside with ⟨moves, writes, bodies⟩
    exact ⟨moves.simulation, fun name => ⟨rfl, writes name⟩, fun alike => ⟨⟨rfl, alike.1.2⟩, bodies alike.2⟩⟩
  bound := by
    rintro world machine other own away name value value' ⟨rfl, held⟩ ⟨rfl, writes⟩ ⟨rfl, good⟩
    exact (closed.bound held writes good).simulation
  made := by
    rintro world machine other content content' ⟨rfl, held⟩ contents
    rcases contents_of_simulation contents with ⟨rfl, good⟩
    rcases closed.made held good with ⟨moves, made⟩
    exact ⟨moves.simulation, fun marked => ⟨rfl, made marked⟩⟩
  printed := by
    rintro world machine other text ⟨rfl, held⟩
    exact (closed.printed text held).simulation
  entered := by
    rintro world machine other own away node node' frames ⟨rfl, held⟩ ⟨⟨rfl, rfl⟩, asked⟩
    exact (closed.entered frames held asked).simulation
  left := by
    rintro world machine other result result' ⟨rfl, held⟩ ends
    have moves : inv.Moves world machine (.left result) := by
      refine closed.left held fun value same => ?_
      subst same
      cases ends with
      | ok gives => exact gives_of_simulation gives
    exact ⟨moves.permitted, rfl, moves.machine⟩

end Closed

def Granted (inv : Invariant) (acts : List Act) : Prop :=
  ∀ value, .left (.ok value) ∈ acts → inv.granted value

def after (inv : Invariant) (world : inv.World) (acts : List Act) : inv.World := acts.foldl inv.perform world

/-- What is known of a chronicle: at every moment the invariant holds and the act was permitted, and so it is
at the end. -/
structure Tells (inv : Invariant) {α : Type} (post : inv.World → α → Prop) (world : inv.World)
    (machine : Machine) (told : Chronicle α) : Prop where
  moment : ∀ earlier act later, told.acts = earlier ++ act :: later →
    inv.machine (inv.after world earlier) (machine.replay earlier) ∧ inv.permits (inv.after world earlier) act
  machine : inv.machine (inv.after world told.acts) (machine.replay told.acts)
  gives : ∀ value, told.result = .ok value → post (inv.after world told.acts) value
  reaches : ∀ leaf, told.result = .error (.unknownNode leaf) → inv.reaches leaf

theorem Tells.of_outcome {α : Type} {post : inv.World → α → Prop} {machine after : Machine} {told : Chronicle α}
    (tells : inv.Tells post world machine told) {value : α}
    (outcome : told.outcome machine = (.ok value, after)) :
    inv.machine (inv.after world told.acts) after ∧ post (inv.after world told.acts) value := by
  rcases Prod.mk.inj outcome with ⟨result, rfl⟩
  exact ⟨tells.machine, tells.gives value result⟩

theorem tells_of_simulation {α : Type} {post : inv.World → α → Prop} {weak : inv.World → α → α → Prop}
    {machine : Machine} {told : Chronicle α} (tells : inv.simulation.Tells weak world machine machine told told)
    (implied : ∀ later value other, weak later value other → post later value) :
    inv.Tells post world machine told where
  moment earlier act later shape := by
    have course := tells.course
    rw [shape] at course
    rcases course.moment with ⟨before, act', behind, -, held, permitted⟩
    exact ⟨held.2, permitted⟩
  machine := tells.course.ends.2
  gives value same := by
    have ends := tells.ends
    rw [same] at ends
    cases ends with
    | ok alike => exact implied _ _ _ alike
  reaches leaf same := by
    have ends := tells.ends
    rw [same] at ends
    cases ends with
    | unknownNode reached => exact reached

open Evaluation

namespace Closed

variable (closed : inv.Closed) {machine : Machine}
include closed

/-- Every evaluation keeps the invariant. -/
theorem evaluation (world : inv.World) (frames : Nat) (own : ScopeId) (node : Node)
    (asked : inv.node world own node) (held : inv.machine world machine) (granted : inv.Granted (chronicle frames own node machine).acts) :
    inv.Tells (fun later => inv.Gives later (inv.quiet node)) world machine
      (chronicle frames own node machine) :=
  tells_of_simulation (closed.simulation.running frames ⟨⟨rfl, rfl⟩, asked⟩ ⟨rfl, held⟩ granted)
    fun _ _ _ => gives_of_simulation

theorem call (world : inv.World) (frames : Nat) {callee : Value} {arguments : List Value}
    (good : ∀ value ∈ callee :: arguments, inv.value world value ∧ inv.granted value)
    (held : inv.machine world machine) (granted : inv.Granted (callChronicle frames callee arguments machine).acts) :
    inv.Tells (fun later => inv.Gives later True) world machine
      (callChronicle frames callee arguments machine) := by
  rw [List.forall_mem_cons] at good
  refine tells_of_simulation (closed.simulation.calling frames ⟨rfl, good.1.1⟩ ?_ ⟨rfl, held⟩ granted)
    fun _ _ _ => gives_of_simulation
  exact List.forall₂_same.mpr fun value member => ⟨⟨rfl, (good.2 value member).1⟩, (good.2 value member).2⟩

theorem expressions (world : inv.World) (frames : Nat) (own : ScopeId) (nodes : List Node)
    (asked : ∀ inner ∈ nodes, inv.node world own inner ∧ inv.quiet inner) (held : inv.machine world machine)
    (granted : inv.Granted ((Evaluation.expressions own nodes).chronicle chronicle frames machine).acts) :
    inv.Tells (fun later values => ∀ value ∈ values, inv.Gives later True value) world machine
      ((Evaluation.expressions own nodes).chronicle chronicle frames machine) := by
  have alike : List.Forall₂ (fun inner inner' =>
      inv.simulation.node world own own inner inner' ∧ inv.simulation.quiet inner) nodes nodes :=
    List.forall₂_same.mpr fun inner member => ⟨⟨⟨rfl, rfl⟩, (asked inner member).1⟩, (asked inner member).2⟩
  have inStep := Simulation.expressions_inStep closed.simulation alike
  refine tells_of_simulation (inStep.tells closed.simulation (fun less _ => closed.simulation.running less)
    ⟨rfl, held⟩ granted) ?_
  rintro later values others (⟨fault, rfl, rfl⟩ | ⟨taken, proper⟩)
  · exact List.forall_mem_singleton.mpr (.error fault)
  · have good := values_of_simulation (taken.imp fun _ _ both => both.1)
    exact fun value member => .value (good.2 value member)

theorem entries (world : inv.World) (frames : Nat) (own : ScopeId) (pairs : List (Node × Node))
    (asked : ∀ pair ∈ pairs, (inv.node world own pair.1 ∧ inv.quiet pair.1) ∧
      inv.node world own pair.2 ∧ inv.quiet pair.2) (held : inv.machine world machine)
    (granted : inv.Granted ((Evaluation.entries own [] pairs).chronicle chronicle frames machine).acts) :
    inv.Tells (fun later => inv.Gives later True) world machine
      ((Evaluation.entries own [] pairs).chronicle chronicle frames machine) := by
  have inStep : inv.simulation.InStep (fun later => inv.simulation.Gives later True) world
      (Evaluation.entries own [] pairs) (Evaluation.entries own [] pairs) := by
    refine Simulation.entries_inStep closed.simulation (List.forall₂_same.mpr fun pair member => ?_) .none
    rcases asked pair member with ⟨⟨key, silent⟩, value, mute⟩
    exact ⟨⟨⟨⟨rfl, rfl⟩, key⟩, silent⟩, ⟨⟨rfl, rfl⟩, value⟩, mute⟩
  exact tells_of_simulation (inStep.tells closed.simulation (fun less _ => closed.simulation.running less)
    ⟨rfl, held⟩ granted) fun _ _ _ => gives_of_simulation

end Closed

end Invariant

end Marmoset
