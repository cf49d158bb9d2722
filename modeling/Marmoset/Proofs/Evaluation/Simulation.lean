import Marmoset.Proofs.Evaluation.Chronicle
import Marmoset.Proofs.Tree.Twin
import Marmoset.Proofs.Value.Twin

/-!
Simulations: what it takes for two evaluations to do the same in every step. A simulation says which
machines, scopes, values and nodes stand for each other, in a world that grows with every act. When its
relations are closed under what single steps do, evaluations that begin side by side stay side by side.
A relation between equals, such as an invariant of one evaluation, is a special case.
-/

namespace Marmoset

structure Simulation where
  /-- How far the two sides have come. -/
  World : Type
  perform : World → Act → World
  machine : World → Machine → Machine → Prop
  scope : World → ScopeId → ScopeId → Prop
  value : World → Value → Value → Prop
  /-- Nodes that may be evaluated side by side, each in its scope. -/
  node : World → ScopeId → ScopeId → Node → Node → Prop
  /-- The parameters and the bodies that functions may have. -/
  function : List Name → Node → List Name → Node → Prop
  /-- The name may be bound in the scopes. -/
  writes : World → ScopeId → ScopeId → String → Prop
  /-- The node leaves no return marker. -/
  quiet : Node → Prop
  /-- Return markers may stand where other values stand. -/
  marked : Prop
  /-- The leaf may be reached although it is no form of the language. -/
  reaches : Foreign → Prop
  /-- What is taken for granted of every value that an evaluation gives. -/
  granted : Value → Prop
  /-- What is to be known of the acts. -/
  permits : World → Act → Act → Prop

namespace Simulation

variable (sim : Simulation)

/-- What the evaluation of a node gives: an error, a value, or a return marker if the node may leave one. -/
inductive Gives (world : sim.World) (quiet : Prop) : Value → Value → Prop
  | error (fault : Fault) : Gives world quiet (.error fault) (.error fault)
  | value {value other : Value} (alike : sim.value world value other) : Gives world quiet value other
  | returned {identity away : Identity} {value other : Value} (unmarked : ¬ sim.marked) (loud : ¬ quiet)
      (alike : sim.value world value other) :
      Gives world quiet (.returned identity value) (.returned away other)

inductive Ends {α : Type} (related : α → α → Prop) : Except Stop α → Except Stop α → Prop
  | ok {value other : α} (alike : related value other) : Ends related (.ok value) (.ok other)
  | exhausted : Ends related (.error .exhausted) (.error .exhausted)
  | unknownNode {leaf : Foreign} (reached : sim.reaches leaf) :
      Ends related (.error (.unknownNode leaf)) (.error (.unknownNode leaf))

inductive Written (world : sim.World) : Entries → Entries → Prop
  | none : Written world [] []
  | write {entries others : Entries} {key : Key} {value other : Value} (before : Written world entries others)
      (keyed : sim.value world key.toValue key.toValue) (alike : sim.value world value other) :
      Written world (Table.write key value entries) (Table.write key other others)

inductive Contents (world : sim.World) : Content → Content → Prop
  | array {elements others : List Value} (inside : List.Forall₂ (sim.value world) elements others) :
      Contents world (.array elements) (.array others)
  | hash {entries others : Entries} (written : sim.Written world entries others) :
      Contents world (.hash entries) (.hash others)
  | function {parameters names : List Name} {own other : Node} {home away : ScopeId}
      (alike : sim.function parameters own names other) (captured : sim.scope world home away) :
      Contents world (.function parameters own home) (.function names other away)
  | returned {value other : Value} (inside : sim.value world value other) :
      Contents world (.returned value) (.returned other)

/-- The scopes are those of a call: any name may be bound there, and any body evaluated. -/
structure Opens (world : sim.World) (own other : ScopeId) : Prop where
  writes : ∀ name, sim.writes world own other name
  node : ∀ {parameters names : List Name} {inner away : Node},
    sim.function parameters inner names away → sim.node world own other inner away

structure Moves (world : sim.World) (machine other : Machine) (act act' : Act) : Prop where
  permitted : sim.permits world act act'
  machine : sim.machine (sim.perform world act) (machine.perform act) (other.perform act')

def after (world : sim.World) (acts : List Act) : sim.World := acts.foldl sim.perform world

def Later (world later : sim.World) : Prop := ∃ acts, sim.after world acts = later

end Simulation

def Content.isMarker : Content → Bool
  | returned _ => true
  | _ => false

namespace Simulation

/-- The relations of a simulation go together: they are kept as the world grows, they say of the parts of
nodes and values what they say of the whole, and every act that the two sides do leads to machines that
stand for each other. -/
structure Closed (sim : Simulation) : Prop where
  value_kept : ∀ {world value other} act, sim.value world value other →
    sim.value (sim.perform world act) value other
  node_kept : ∀ {world own other node away} act, sim.node world own other node away →
    sim.node (sim.perform world act) own other node away
  writes_kept : ∀ {world own other name} act, sim.writes world own other name →
    sim.writes (sim.perform world act) own other name
  node_scope : ∀ {world own other node away}, sim.node world own other node away → sim.scope world own other
  node_twin : ∀ {world own other node away}, sim.node world own other node away →
    node.Twin (fun inner inner' => sim.node world own other inner inner' ∧ sim.quiet inner)
      (fun inner inner' => sim.node world own other inner inner' ∧ (sim.quiet node → sim.quiet inner))
      (sim.node world own other) sim.function away
  binding : ∀ {world own other name inner line away}, sim.node world own other (.binding name inner line) away →
    sim.writes world own other name.text
  integer : ∀ {world own other value line away}, sim.node world own other (.integer value line) away →
    sim.value world (.integer value) (.integer value)
  returning : ∀ {world own other inner line away}, sim.node world own other (.returning inner line) away →
    sim.quiet (.returning inner line) → sim.marked
  foreign : ∀ {world own other leaf away}, sim.node world own other (.foreign leaf) away → sim.reaches leaf
  value_twin : ∀ {world value other}, sim.value world value other →
    value.Twin (sim.value world) (sim.scope world) sim.function other
  named : ∀ {parameters own names away}, sim.function parameters own names away →
    parameters.map Name.text = names.map Name.text
  identical : ∀ {world first second first' second'}, sim.value world first first' →
    sim.value world second second' → first'.identical second' = first.identical second
  computed : ∀ {world value}, value.Computed → sim.value world value value
  counted : ∀ {world value other}, sim.value world value other → sim.granted value →
    sim.value world (.integer value.extent) (.integer value.extent)
  inspect : ∀ {world value other}, sim.value world value other → other.inspect = value.inspect
  inspectFrames : ∀ {world value other}, sim.value world value other →
    other.inspectFrames = value.inspectFrames
  found : ∀ {world machine machine' own other} name, sim.machine world machine machine' →
    sim.scope world own other →
    Option.Rel (sim.value world) (machine.lookup own name) (machine'.lookup other name)
  added : ∀ {world machine machine' home away}, sim.machine world machine machine' →
    sim.scope world home away →
    sim.Moves world machine machine' (.added (some home)) (.added (some away)) ∧
      sim.Opens (sim.perform world (.added (some home))) machine.scopes.size machine'.scopes.size
  bound : ∀ {world machine machine' own other name value value'}, sim.machine world machine machine' →
    sim.writes world own other name → sim.value world value value' →
    sim.Moves world machine machine' (.bound own name value) (.bound other name value')
  made : ∀ {world machine machine' content content'}, sim.machine world machine machine' →
    sim.Contents world content content' →
    let value := content.carrying machine.next
    let value' := content'.carrying machine'.next
    sim.Moves world machine machine' (.made value) (.made value') ∧
      ((content.isMarker = true → sim.marked) → sim.value (sim.perform world (.made value)) value value')
  printed : ∀ {world machine machine'} text, sim.machine world machine machine' →
    sim.Moves world machine machine' (.printed text) (.printed text)
  entered : ∀ {world machine machine' own other node away} frames, sim.machine world machine machine' →
    sim.node world own other node away →
    sim.Moves world machine machine' (.entered frames own node) (.entered frames other away)
  left : ∀ {world machine machine' result result'}, sim.machine world machine machine' →
    sim.Ends (sim.Gives world False) result result' →
    sim.Moves world machine machine' (.left result) (.left result')

variable {sim : Simulation} {world later : sim.World}

theorem Later.refl : sim.Later world world := ⟨[], rfl⟩

theorem Later.trans {last : sim.World} (first : sim.Later world later) (second : sim.Later later last) :
    sim.Later world last := by
  rcases first with ⟨acts, rfl⟩
  rcases second with ⟨more, rfl⟩
  exact ⟨acts ++ more, List.foldl_append⟩

theorem later_after (world : sim.World) (acts : List Act) : sim.Later world (sim.after world acts) :=
  ⟨acts, rfl⟩

theorem Later.keeps (claim : sim.World → Prop)
    (kept : ∀ world act, claim world → claim (sim.perform world act)) (more : sim.Later world later)
    (holds : claim world) : claim later := by
  rcases more with ⟨acts, rfl⟩
  induction acts generalizing world with
  | nil => exact holds
  | cons act acts ih => exact ih (kept world act holds)

namespace Closed

variable (closed : sim.Closed)
include closed

theorem value_later {value other : Value} (related : sim.value world value other)
    (more : sim.Later world later) : sim.value later value other :=
  more.keeps (sim.value · value other) (fun _ act => closed.value_kept act) related

theorem node_later {own other : ScopeId} {node away : Node} (related : sim.node world own other node away)
    (more : sim.Later world later) : sim.node later own other node away :=
  more.keeps (sim.node · own other node away) (fun _ act => closed.node_kept act) related

theorem writes_later {own other : ScopeId} {name : String} (related : sim.writes world own other name)
    (more : sim.Later world later) : sim.writes later own other name :=
  more.keeps (sim.writes · own other name) (fun _ act => closed.writes_kept act) related

theorem opens_later {own other : ScopeId} (opens : sim.Opens world own other)
    (more : sim.Later world later) : sim.Opens later own other :=
  ⟨fun name => closed.writes_later (opens.writes name) more,
    fun alike => closed.node_later (opens.node alike) more⟩

theorem written_later {entries others : Entries} (written : sim.Written world entries others)
    (more : sim.Later world later) : sim.Written later entries others := by
  induction written with
  | none => exact .none
  | write before keyed alike ih =>
      exact .write ih (closed.value_later keyed more) (closed.value_later alike more)

end Closed

theorem Ends.imp {α : Type} {strong weak : α → α → Prop} {result other : Except Stop α}
    (ends : sim.Ends strong result other) (implied : ∀ value away, strong value away → weak value away) :
    sim.Ends weak result other := by
  cases ends with
  | ok alike => exact .ok (implied _ _ alike)
  | exhausted => exact .exhausted
  | unknownNode reached => exact .unknownNode reached

theorem Written.keyed {entries others : Entries} (written : sim.Written world entries others) :
    Keyed (sim.value world) entries others := by
  induction written with
  | none => exact .nil
  | write before keyed alike ih => exact ih.write _ alike

section Given

variable {quiet strict : Prop} {value other : Value}

theorem Gives.mono (gives : sim.Gives world strict value other) (implied : quiet → strict) :
    sim.Gives world quiet value other := by
  cases gives with
  | error fault => exact .error fault
  | value alike => exact .value alike
  | returned unmarked loud alike => exact .returned unmarked (loud ∘ implied) alike

theorem Gives.kept (closed : sim.Closed) (gives : sim.Gives world quiet value other)
    (more : sim.Later world later) : sim.Gives later quiet value other := by
  cases gives with
  | error fault => exact .error fault
  | value alike => exact .value (closed.value_later alike more)
  | returned unmarked loud alike => exact .returned unmarked loud (closed.value_later alike more)

theorem Gives.isError (closed : sim.Closed) (gives : sim.Gives world quiet value other) :
    other.isError = value.isError := by
  cases gives with
  | value alike => exact (closed.value_twin alike).isError
  | _ => rfl

theorem Gives.isReturned (closed : sim.Closed) (gives : sim.Gives world quiet value other) :
    other.isReturned = value.isReturned := by
  cases gives with
  | value alike => exact (closed.value_twin alike).isReturned
  | _ => rfl

theorem Gives.proper (gives : sim.Gives world quiet value other) (silent : quiet)
    (proper : value.isError = false) : sim.value world value other := by
  cases gives with
  | error fault => cases proper
  | value alike => exact alike
  | returned _ loud alike => exact absurd silent loud

theorem Gives.failed (closed : sim.Closed) (gives : sim.Gives world quiet value other)
    (failed : value.isError = true) : ∃ fault, value = .error fault ∧ other = .error fault := by
  rcases Value.isError_eq_true.mp failed with ⟨fault, rfl⟩
  cases gives with
  | error => exact ⟨fault, rfl, rfl⟩
  | value alike => exact ⟨fault, rfl, (closed.value_twin alike).same rfl⟩

theorem Gives.unwrap (closed : sim.Closed) (gives : sim.Gives world strict value other) :
    sim.Gives world quiet value.unwrap other.unwrap := by
  cases gives with
  | error fault => exact .error fault
  | returned _ loud alike => exact .value alike
  | value alike =>
      have twin := closed.value_twin alike
      cases twin with
      | returned inside => exact .value inside
      | _ => exact .value alike

end Given

/-- Two agendas ask for the same things, about what stands for each other, and go on in this way with
answers that do. -/
inductive InStep (sim : Simulation) {α : Type} (post : sim.World → α → α → Prop) :
    sim.World → Agenda α → Agenda α → Prop
  | finish {world : sim.World} {result other : Except Stop α} (ends : sim.Ends (post world) result other) :
      InStep sim post world (.finish result) (.finish other)
  | room {world : sim.World} {calls : Nat} {next next' : Unit → Agenda α}
      (rest : InStep sim post world (next ()) (next' ())) :
      InStep sim post world (.act (.room calls) next) (.act (.room calls) next')
  | look {world : sim.World} {own other : ScopeId} {name : String} {next next' : Option Value → Agenda α}
      (scopes : sim.scope world own other)
      (rest : ∀ found found', Option.Rel (sim.value world) found found' →
        InStep sim post world (next found) (next' found')) :
      InStep sim post world (.act (.look own name) next) (.act (.look other name) next')
  | ask {world : sim.World} {calls : Nat} {own other : ScopeId} {node away : Node}
      {next next' : Value → Agenda α} (nodes : sim.node world own other node away)
      (rest : ∀ later value value', sim.Later world later → sim.granted value →
        sim.Gives later (sim.quiet node) value value' → InStep sim post later (next value) (next' value')) :
      InStep sim post world (.act (.ask calls own node) next) (.act (.ask calls other away) next')
  | enclose {world : sim.World} {home away : ScopeId} {next next' : ScopeId → Agenda α}
      (scopes : sim.scope world home away)
      (rest : ∀ later own other, sim.Later world later → sim.Opens later own other →
        InStep sim post later (next own) (next' other)) :
      InStep sim post world (.act (.enclose home) next) (.act (.enclose away) next')
  | assign {world : sim.World} {own other : ScopeId} {name : String} {value value' : Value}
      {next next' : Unit → Agenda α} (writes : sim.writes world own other name)
      (values : sim.value world value value')
      (rest : ∀ later, sim.Later world later → InStep sim post later (next ()) (next' ())) :
      InStep sim post world (.act (.assign own name value) next) (.act (.assign other name value') next')
  | make {world : sim.World} {content content' : Content} {next next' : Value → Agenda α}
      (contents : sim.Contents world content content')
      (rest : ∀ later identity away, sim.Later world later →
        let value := content.carrying identity
        let value' := content'.carrying away
        ((content.isMarker = true → sim.marked) → sim.value later value value') →
        InStep sim post later (next value) (next' value')) :
      InStep sim post world (.act (.make content) next) (.act (.make content') next')
  | print {world : sim.World} {text : String} {next next' : Unit → Agenda α}
      (rest : ∀ later, sim.Later world later → InStep sim post later (next ()) (next' ())) :
      InStep sim post world (.act (.print text) next) (.act (.print text) next')

section Agendas

variable {α β : Type} {post : sim.World → α → α → Prop} {final : sim.World → β → β → Prop}

theorem pure_inStep {value other : α} (holds : post world value other) :
    sim.InStep post world (pure value) (pure other) :=
  .finish (.ok holds)

theorem InStep.bind {agenda other : Agenda α} {next next' : α → Agenda β}
    (inStep : sim.InStep post world agenda other)
    (rest : ∀ later value value', sim.Later world later → post later value value' →
      sim.InStep final later (next value) (next' value')) :
    sim.InStep final world (agenda >>= next) (other >>= next') := by
  change sim.InStep final world (agenda.andThen next) (other.andThen next')
  induction inStep with
  | finish ends =>
      cases ends with
      | ok alike => exact rest _ _ _ .refl alike
      | exhausted => exact .finish .exhausted
      | unknownNode reached => exact .finish (.unknownNode reached)
  | room _ ih => exact .room (ih rest)
  | look scopes _ ih => exact .look scopes fun found found' same => ih found found' same rest
  | ask nodes _ ih =>
      exact .ask nodes fun later value value' more granted gives =>
        ih later value value' more granted gives fun last a b further => rest last a b (more.trans further)
  | enclose scopes _ ih =>
      exact .enclose scopes fun later own other more opens =>
        ih later own other more opens fun last a b further => rest last a b (more.trans further)
  | assign writes values _ ih =>
      exact .assign writes values fun later more =>
        ih later more fun last a b further => rest last a b (more.trans further)
  | make contents _ ih =>
      exact .make contents fun later identity away more made =>
        ih later identity away more made fun last a b further => rest last a b (more.trans further)
  | print _ ih =>
      exact .print fun later more => ih later more fun last a b further => rest last a b (more.trans further)

end Agendas

/-- Acts that are done side by side from two machines, each of them permitted. -/
inductive Course (sim : Simulation) : sim.World → Machine → Machine → List Act → List Act → Prop
  | nil {world : sim.World} {machine other : Machine} (held : sim.machine world machine other) :
      Course sim world machine other [] []
  | cons {world : sim.World} {machine other : Machine} {act act' : Act} {acts others : List Act}
      (held : sim.machine world machine other) (permitted : sim.permits world act act')
      (rest : Course sim (sim.perform world act) (machine.perform act) (other.perform act') acts others) :
      Course sim world machine other (act :: acts) (act' :: others)

section Courses

variable {machine other : Machine} {acts others more more' : List Act}

theorem Course.append (course : sim.Course world machine other acts others)
    (rest : sim.Course (sim.after world acts) (machine.replay acts) (other.replay others) more more') :
    sim.Course world machine other (acts ++ more) (others ++ more') := by
  induction course with
  | nil held => exact rest
  | cons held permitted _ ih => exact .cons held permitted (ih rest)

theorem Course.ends (course : sim.Course world machine other acts others) :
    sim.machine (sim.after world acts) (machine.replay acts) (other.replay others) := by
  induction course with
  | nil held => exact held
  | cons held permitted _ ih => exact ih

theorem Course.moment {earlier later : List Act} {act : Act}
    (course : sim.Course world machine other (earlier ++ act :: later) others) :
    ∃ before act' behind, others = before ++ act' :: behind ∧
      sim.machine (sim.after world earlier) (machine.replay earlier) (other.replay before) ∧
      sim.permits (sim.after world earlier) act act' := by
  induction earlier generalizing world machine other others with
  | nil =>
      cases course with
      | @cons _ _ _ _ act' _ rest held permitted _ => exact ⟨[], act', rest, rfl, held, permitted⟩
  | cons first earlier ih =>
      cases course with
      | @cons _ _ _ _ first' _ _ held permitted rest =>
          rcases ih rest with ⟨before, act', behind, rfl, there⟩
          exact ⟨first' :: before, act', behind, rfl, there⟩

end Courses

structure Tells (sim : Simulation) {α : Type} (post : sim.World → α → α → Prop) (world : sim.World)
    (machine other : Machine) (told told' : Chronicle α) : Prop where
  course : sim.Course world machine other told.acts told'.acts
  ends : sim.Ends (post (sim.after world told.acts)) told.result told'.result

def Granted (sim : Simulation) (acts : List Act) : Prop :=
  ∀ value, .left (.ok value) ∈ acts → sim.granted value

section Running

variable {α : Type} {post : sim.World → α → α → Prop} {machine other : Machine}

theorem Granted.front {acts more : List Act} (granted : sim.Granted (acts ++ more)) : sim.Granted acts :=
  fun value member => granted value (List.mem_append_left _ member)

theorem Granted.back {acts more : List Act} (granted : sim.Granted (acts ++ more)) : sim.Granted more :=
  fun value member => granted value (List.mem_append_right _ member)

theorem Tells.following {told told' : Chronicle α} {acts others : List Act}
    (course : sim.Course world machine other acts others)
    (tells : sim.Tells post (sim.after world acts) (machine.replay acts) (other.replay others) told told') :
    sim.Tells post world machine other (told.following acts) (told'.following others) := by
  refine ⟨course.append tells.course, ?_⟩
  have after : sim.after world (acts ++ told.acts) = sim.after (sim.after world acts) told.acts :=
    List.foldl_append
  simp only [Chronicle.following, after]
  exact tells.ends

theorem Tells.act {told told' : Chronicle α} {act act' : Act} (held : sim.machine world machine other)
    (moves : sim.Moves world machine other act act')
    (tells : sim.Tells post (sim.perform world act) (machine.perform act) (other.perform act') told told') :
    sim.Tells post world machine other (told.following [act]) (told'.following [act']) :=
  .following (.cons held moves.permitted (.nil moves.machine)) tells

theorem Tells.between (closed : sim.Closed) {told told' : Chronicle Value} {quiet : Prop} {frames : Nat}
    {own away : ScopeId} {node node' : Node} (nodes : sim.node world own away node node')
    (held : sim.machine world machine other)
    (tells : sim.machine (sim.perform world (.entered frames own node)) machine other →
      sim.Tells (fun later => sim.Gives later quiet) (sim.perform world (.entered frames own node))
        machine other told told') :
    sim.Tells (fun later => sim.Gives later quiet) world machine other (told.between frames own node)
      (told'.between frames away node') := by
  have entered := closed.entered frames held nodes
  have inside := tells entered.machine
  have left := closed.left inside.course.ends (inside.ends.imp fun _ _ gives => gives.mono False.elim)
  have last : sim.Tells (fun later => sim.Gives later quiet)
      (sim.after (sim.perform world (.entered frames own node)) told.acts) (machine.replay told.acts)
      (other.replay told'.acts) ⟨told.result, [.left told.result]⟩ ⟨told'.result, [.left told'.result]⟩ :=
    ⟨.cons inside.course.ends left.permitted (.nil left.machine),
      inside.ends.imp fun _ _ gives => gives.kept closed (later_after _ [_])⟩
  exact .act held entered (.following inside.course last)

end Running

end Simulation

open Evaluation

theorem Evaluation.chronicle_left (frames : Nat) (scope : ScopeId) (node : Node) (machine : Machine) :
    .left (chronicle frames scope node machine).result ∈ (chronicle frames scope node machine).acts := by
  cases frames with
  | zero => exact List.mem_cons_of_mem _ List.mem_cons_self
  | succ frames =>
      rw [chronicle_succ]
      exact List.mem_cons_of_mem _ List.mem_concat_self

namespace Simulation

section Running

variable {sim : Simulation} {α : Type} {post : sim.World → α → α → Prop} {frames : Nat}

def Running (sim : Simulation) (frames : Nat) : Prop :=
  ∀ {world own other node away machine machine'}, sim.node world own other node away →
    sim.machine world machine machine' → sim.Granted (chronicle frames own node machine).acts →
    sim.Tells (fun later => sim.Gives later (sim.quiet node)) world machine machine'
      (chronicle frames own node machine) (chronicle frames other away machine')

/-- Agendas in step are worked off side by side. -/
theorem InStep.tells (closed : sim.Closed) (running : ∀ less ≤ frames, sim.Running less)
    {world : sim.World} {agenda agenda' : Agenda α} (inStep : sim.InStep post world agenda agenda')
    {machine machine' : Machine} (held : sim.machine world machine machine')
    (granted : sim.Granted (agenda.chronicle chronicle frames machine).acts) :
    sim.Tells post world machine machine' (agenda.chronicle chronicle frames machine)
      (agenda'.chronicle chronicle frames machine') := by
  induction inStep generalizing machine machine' with
  | finish ends => exact ⟨.nil held, ends⟩
  | room rest ih =>
      simp only [Agenda.chronicle, Request.chronicle] at granted ⊢
      split at granted
      · rw [if_pos ‹_›]
        exact ih held granted
      · rw [if_neg ‹_›]
        exact ⟨.nil held, .exhausted⟩
  | look scopes rest ih =>
      exact ih _ _ (closed.found _ held scopes) held granted
  | @ask world calls own other node away next next' nodes rest ih =>
      simp only [Agenda.chronicle, Request.chronicle] at granted ⊢
      have ended := chronicle_left (frames - calls) own node machine
      have tells := running (frames - calls) (Nat.sub_le ..) nodes held
      generalize chronicle (frames - calls) own node machine = told at granted ended tells ⊢
      generalize chronicle (frames - calls) other away machine' = told' at tells ⊢
      have first : sim.Granted told.acts := by
        rcases told with ⟨stop | value, acts⟩
        · exact granted
        · exact granted.front
      rcases told with ⟨result, acts⟩
      rcases told' with ⟨result', acts'⟩
      rcases tells first with ⟨course, ends⟩
      cases ends with
      | ok gives =>
          exact .following course
            (ih _ _ _ (later_after world acts) (first _ ended) gives course.ends granted.back)
      | exhausted => exact ⟨course, .exhausted⟩
      | unknownNode reached => exact ⟨course, .unknownNode reached⟩
  | enclose scopes rest ih =>
      rcases closed.added held scopes with ⟨moves, opens⟩
      exact .act held moves (ih _ _ _ (later_after _ [_]) opens moves.machine granted.back)
  | assign writes values rest ih =>
      have moves := closed.bound held writes values
      exact .act held moves (ih _ (later_after _ [_]) moves.machine granted.back)
  | make contents rest ih =>
      rcases closed.made held contents with ⟨moves, made⟩
      exact .act held moves (ih _ _ _ (later_after _ [_]) made moves.machine granted.back)
  | @print world text next next' rest ih =>
      have moves := closed.printed text held
      exact .act held moves (ih _ (later_after _ [_]) moves.machine granted.back)

end Running

end Simulation

end Marmoset
