import Marmoset.Proofs.Evaluation.Outcome

/-!
The chronicle of an evaluation: everything that it does, act by act, and where each evaluation inside it
begins and how it ends. It is written down while agendas are worked off. Performing its acts on the machine
again leads where the evaluation led, so the state at every moment of an evaluation is told by the acts up
to that moment.
-/

namespace Marmoset

inductive Act
  | added (outer : Option ScopeId)
  | bound (scope : ScopeId) (name : String) (value : Value)
  /-- A value took the next identity. -/
  | made (value : Value)
  | printed (text : String)
  /-- What was printed so far was taken. -/
  | taken
  /-- An evaluation began, with some frames of the stack left. -/
  | entered (frames : Nat) (scope : ScopeId) (node : Node)
  /-- An evaluation ended. -/
  | left (result : Except Stop Value)

namespace Machine

def perform (machine : Machine) : Act → Machine
  | .added outer => (machine.addScope outer).2
  | .bound scope name value => machine.bind scope name value
  | .made _ => machine.freshIdentity.2
  | .printed text => machine.print text
  | .taken => machine.takePrinted.2
  | .entered _ _ _ | .left _ => machine

def replay (machine : Machine) (acts : List Act) : Machine := acts.foldl perform machine

@[simp] theorem replay_nil (machine : Machine) : machine.replay [] = machine := rfl

@[simp] theorem replay_cons (machine : Machine) (act : Act) (acts : List Act) :
    machine.replay (act :: acts) = (machine.perform act).replay acts := rfl

theorem replay_append (machine : Machine) (acts more : List Act) :
    machine.replay (acts ++ more) = (machine.replay acts).replay more :=
  List.foldl_append

/-- The machine that acts lead to from the beginning. -/
def after (history : List Act) : Machine := empty.replay history

theorem after_append (history acts : List Act) : after (history ++ acts) = (after history).replay acts :=
  empty.replay_append history acts

theorem after_concat (history : List Act) (act : Act) :
    after (history ++ [act]) = (after history).perform act :=
  after_append history [act]

end Machine

structure Chronicle (α : Type) where
  result : Except Stop α
  acts : List Act

namespace Chronicle

variable {α β : Type}

def following (chronicle : Chronicle α) (acts : List Act) : Chronicle α :=
  { chronicle with acts := acts ++ chronicle.acts }

/-- What begins on a machine goes on with the value, on the machine that it leads to. -/
def andThen (chronicle : Chronicle α) (machine : Machine) (continued : α → Machine → Chronicle β) :
    Chronicle β :=
  match chronicle with
  | ⟨.error stop, acts⟩ => ⟨.error stop, acts⟩
  | ⟨.ok value, acts⟩ => (continued value (machine.replay acts)).following acts

def between (chronicle : Chronicle Value) (frames : Nat) (scope : ScopeId) (node : Node) :
    Chronicle Value :=
  { chronicle with acts := .entered frames scope node :: (chronicle.acts ++ [.left chronicle.result]) }

/-- What a chronicle tells of an evaluation that begins on a machine. -/
def outcome (chronicle : Chronicle α) (machine : Machine) : Except Stop α × Machine :=
  (chronicle.result, machine.replay chronicle.acts)

theorem outcome_following (chronicle : Chronicle α) (acts : List Act) (machine : Machine) :
    (chronicle.following acts).outcome machine = chronicle.outcome (machine.replay acts) := by
  rw [outcome, outcome, following, Machine.replay_append]

theorem outcome_between (chronicle : Chronicle Value) (frames : Nat) (scope : ScopeId) (node : Node)
    (machine : Machine) :
    (chronicle.between frames scope node).outcome machine = chronicle.outcome machine := by
  rw [outcome, outcome, between, Machine.replay_cons, Machine.replay_append]
  rfl

end Chronicle

def Request.chronicle (inner : Nat → ScopeId → Node → Machine → Chronicle Value) (frames : Nat) :
    (request : Request) → Machine → Chronicle request.Answer
  | room calls, _ => ⟨if calls ≤ frames then .ok () else .error .exhausted, []⟩
  | look scope name, machine => ⟨.ok (machine.lookup scope name), []⟩
  | ask calls scope node, machine => inner (frames - calls) scope node machine
  | enclose outer, machine => ⟨.ok machine.scopes.size, [.added (some outer)]⟩
  | assign scope name value, _ => ⟨.ok (), [.bound scope name value]⟩
  | make content, machine =>
    let value := content.carrying machine.next
    ⟨.ok value, [.made value]⟩
  | print text, _ => ⟨.ok (), [.printed text]⟩

/-- Works off an agenda on a machine and writes down what is done. -/
def Agenda.chronicle {α : Type} (inner : Nat → ScopeId → Node → Machine → Chronicle Value)
    (frames : Nat) : Agenda α → Machine → Chronicle α
  | finish result, _ => ⟨result, []⟩
  | act request next, machine =>
    (request.chronicle inner frames machine).andThen machine fun answer =>
      (next answer).chronicle inner frames

namespace Evaluation

def chronicle (frames : Nat) : ScopeId → Node → Machine → Chronicle Value :=
  stacked (fun scope node _ => (Chronicle.mk (.error .exhausted) []).between 0 scope node)
    (fun inner left scope node machine =>
      ((step scope node).chronicle inner left machine).between (left + 1) scope node)
    frames frames

def callChronicle (frames : Nat) (callee : Value) (arguments : List Value) :
    Machine → Chronicle Value :=
  (call callee arguments).chronicle chronicle frames

end Evaluation

section Inner

variable {α β : Type} {recur : Nat → ScopeId → Node → Eval Value}
  {inner other : Nat → ScopeId → Node → Machine → Chronicle Value} {frames : Nat}

theorem Request.chronicle_congr (same : ∀ less ≤ frames, inner less = other less) (request : Request) :
    request.chronicle inner frames = request.chronicle other frames := by
  cases request with
  | ask calls scope node => exact congrFun (congrFun (same _ (Nat.sub_le ..)) scope) node
  | _ => rfl

theorem Request.chronicle_outcome (faithful : ∀ less ≤ frames, ∀ scope node machine,
      (recur less scope node).outcome machine = (inner less scope node machine).outcome machine)
    (request : Request) (machine : Machine) : (request.perform recur frames).outcome machine =
      (request.chronicle inner frames machine).outcome machine := by
  cases request with
  | room calls =>
      simp only [perform, chronicle]
      split <;> rfl
  | ask calls scope node => exact faithful _ (Nat.sub_le ..) scope node machine
  | _ => rfl

namespace Agenda

theorem chronicle_congr (same : ∀ less ≤ frames, inner less = other less) (agenda : Agenda α) :
    agenda.chronicle inner frames = agenda.chronicle other frames := by
  induction agenda with
  | finish result => rfl
  | act request next ih =>
      funext machine
      simp only [chronicle, Request.chronicle_congr same, ih]

/-- The chronicle of an agenda tells what working it off does. -/
theorem chronicle_outcome (faithful : ∀ less ≤ frames, ∀ scope node machine,
      (recur less scope node).outcome machine = (inner less scope node machine).outcome machine)
    (agenda : Agenda α) (machine : Machine) :
    (agenda.run recur frames).outcome machine =
      (agenda.chronicle inner frames machine).outcome machine := by
  induction agenda generalizing machine with
  | finish result => cases result <;> rfl
  | act request next ih =>
      have performed := request.chronicle_outcome faithful machine
      rw [run_act, Eval.outcome_bind, performed, chronicle]
      rcases request.chronicle inner frames machine with ⟨stop | answer, acts⟩
      · rfl
      · rw [Chronicle.andThen, Chronicle.outcome_following]
        exact ih answer (machine.replay acts)

theorem chronicle_ask {calls : Nat} {scope : ScopeId} {node : Node} {machine : Machine} {value : Value}
    {acts : List Act} (asked : inner (frames - calls) scope node machine = ⟨.ok value, acts⟩)
    (next : Value → Agenda α) : (ask calls scope node >>= next).chronicle inner frames machine =
      ((next value).chronicle inner frames (machine.replay acts)).following acts := by
  change (inner (frames - calls) scope node machine).andThen machine (fun value => (next value).chronicle inner frames)
    = _
  rw [asked, Chronicle.andThen]

theorem chronicle_room {calls : Nat} (enough : calls ≤ frames) (next : Unit → Agenda α) (machine : Machine) :
    (room calls >>= next).chronicle inner frames machine = (next ()).chronicle inner frames machine := by
  change Chronicle.andThen ⟨if calls ≤ frames then .ok () else .error .exhausted, []⟩ machine _ = _
  rw [if_pos enough]
  rfl

end Agenda

end Inner

namespace Evaluation

theorem chronicle_succ (frames : Nat) (scope : ScopeId) (node : Node) (machine : Machine) :
    chronicle (frames + 1) scope node machine =
      ((step scope node).chronicle chronicle frames machine).between (frames + 1) scope node := by
  have unfolded := stacked_succ
    (fun scope node (_ : Machine) => (Chronicle.mk (.error .exhausted) []).between 0 scope node)
    (fun inner left scope node machine =>
      ((step scope node).chronicle inner left machine).between (left + 1) scope node)
    (fun first second frames same => by
      funext scope node machine
      rw [Agenda.chronicle_congr same]) frames
  exact congrFun (congrFun (congrFun unfolded scope) node) machine

/-- An evaluation leads where its chronicle leads. -/
theorem evaluate_outcome (frames : Nat) (scope : ScopeId) (node : Node) (machine : Machine) :
    (evaluate frames scope node).outcome machine =
      (chronicle frames scope node machine).outcome machine := by
  induction frames using Nat.strongRecOn generalizing scope node machine with
  | ind frames ih =>
    cases frames with
    | zero => rfl
    | succ frames =>
        rw [evaluate_succ, chronicle_succ, Chronicle.outcome_between]
        exact Agenda.chronicle_outcome (fun less enough => ih less (Nat.lt_succ_of_le enough)) _ machine

theorem run_outcome {α : Type} (agenda : Agenda α) (frames : Nat) (machine : Machine) :
    (agenda.run evaluate frames).outcome machine =
      (agenda.chronicle chronicle frames machine).outcome machine :=
  Agenda.chronicle_outcome (fun less _ => evaluate_outcome less) agenda machine

theorem apply_outcome (frames : Nat) (callee : Value) (arguments : List Value) (machine : Machine) :
    (apply frames callee arguments).outcome machine =
      (callChronicle frames callee arguments machine).outcome machine :=
  run_outcome (call callee arguments) frames machine

end Evaluation

end Marmoset
