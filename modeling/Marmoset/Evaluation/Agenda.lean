import Marmoset.Evaluation.Machine

/-!
Agendas: what an evaluation does, one thing after another. What comes next may depend on the answers so
far. An agenda is worked off by a call that has some frames of the stack left above it, and every further
call takes one of them.
-/

namespace Marmoset

/-- What a call comes to that has `frames` of the stack, of at most `limit`. It takes one of them itself;
`call` says what it does with the calls above it and with the frames that are left for them. -/
def stacked {γ : Type} (spent : γ) (call : (Nat → γ) → Nat → γ) : (limit frames : Nat) → γ
  | 0, _ => spent
  | limit + 1, frames =>
    if frames ≤ limit then stacked spent call limit frames
    else call (stacked spent call limit) (frames - 1)

inductive Content
  | array (elements : List Value)
  | hash (entries : Entries)
  | function (parameters : List Name) (body : Node) (scope : ScopeId)
  | returned (value : Value)

def Content.carrying (identity : Identity) : Content → Value
  | array elements => .array identity elements
  | hash entries => .hash identity entries
  | function parameters body scope => .function identity parameters body scope
  | returned value => .returned identity value

/-- A single thing that an evaluation does. -/
inductive Request
  /-- Goes a number of calls up the stack. -/
  | room (calls : Nat)
  | look (scope : ScopeId) (name : String)
  /-- Evaluates a node in a scope, behind a number of calls that lead there. -/
  | ask (calls : Nat) (scope : ScopeId) (node : Node)
  | enclose (outer : ScopeId)
  | assign (scope : ScopeId) (name : String) (value : Value)
  | make (content : Content)
  | print (text : String)

@[reducible] def Request.Answer : Request → Type
  | look _ _ => Option Value
  | ask _ _ _ | make _ => Value
  | enclose _ => ScopeId
  | room _ | assign _ _ _ | print _ => Unit

def Request.perform (recur : Nat → ScopeId → Node → Eval Value) (frames : Nat) :
    (request : Request) → Eval request.Answer
  | room calls => if calls ≤ frames then pure () else throw .exhausted
  | look scope name => Eval.lookup scope name
  | ask calls scope node => recur (frames - calls) scope node
  | enclose outer => Eval.enclose outer
  | assign scope name value => Eval.bind scope name value
  | make content => do
    return content.carrying (← Eval.freshIdentity)
  | print text => Eval.print text

inductive Agenda (α : Type)
  | finish (result : Except Stop α)
  | act (request : Request) (next : request.Answer → Agenda α)

namespace Agenda

variable {α β : Type}

def andThen (agenda : Agenda α) (following : α → Agenda β) : Agenda β :=
  match agenda with
  | finish (.error stop) => finish (.error stop)
  | finish (.ok value) => following value
  | act request next => act request fun answer => (next answer).andThen following

instance : Monad Agenda where
  pure value := finish (.ok value)
  bind := andThen

/-- Works off an agenda with `frames` left above, given how nodes evaluate. -/
def run (recur : Nat → ScopeId → Node → Eval Value) (frames : Nat) : Agenda α → Eval α
  | finish (.error stop) => throw stop
  | finish (.ok value) => pure value
  | act request next => do
    run recur frames (next (← request.perform recur frames))

def stop (reason : Stop) : Agenda α := finish (.error reason)

def room (calls : Nat) : Agenda Unit := act (.room calls) pure

def look (scope : ScopeId) (name : String) : Agenda (Option Value) := act (.look scope name) pure

def ask (calls : Nat) (scope : ScopeId) (node : Node) : Agenda Value := act (.ask calls scope node) pure

def enclose (outer : ScopeId) : Agenda ScopeId := act (.enclose outer) pure

def assign (scope : ScopeId) (name : String) (value : Value) : Agenda Unit :=
  act (.assign scope name value) pure

def make (content : Content) : Agenda Value := act (.make content) pure

def print (text : String) : Agenda Unit := act (.print text) pure

end Agenda

end Marmoset
