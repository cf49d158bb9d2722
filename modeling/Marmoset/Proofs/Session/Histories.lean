import Marmoset.Proofs.Evaluation.History
import Marmoset.Proofs.Session.Runs

/-!
The histories of sessions. A new session begins with its root scope, and whatever is done in it from then on,
be it running sources, calling, setting names or taking what was printed, continues the history of its
machine.
-/

namespace Marmoset.Session

open Machine Evaluation

def runActs (session : Session) (source : String) : List Act :=
  match session.read source with
  | .error _ => []
  | .ok program => (chronicle session.limit session.root program session.machine).acts

/-- The sessions that come about from a new one, each with all that was done in it. -/
inductive Comes (limit : Nat) : Session → List Act → Prop
  | fresh : Comes limit (fresh limit) [.added none]
  | ran {session : Session} {history : List Act} (before : Comes limit session history)
      (source : String) : Comes limit (session.run source).2 (history ++ session.runActs source)
  | called {session : Session} {history : List Act} {callee : Value} {arguments : List Value}
      (before : Comes limit session history)
      (known : ∀ value ∈ callee :: arguments, value.Known history) :
      Comes limit (session.call callee arguments).2
        (history ++ (callChronicle session.limit callee arguments session.machine).acts)
  | set {session : Session} {history : List Act} {value : Value} (before : Comes limit session history)
      (name : String) (known : value.Known history) :
      Comes limit (session.set name value) (history ++ [.bound session.root name value])
  | taken {session : Session} {history : List Act} (before : Comes limit session history) :
      Comes limit session.takePrinted.2 (history ++ [.taken])

structure Follows (session : Session) (history : List Act) : Prop where
  arises : Arises history
  machine : session.machine = after history
  root : session.root < (after history).scopes.size

theorem fresh_follows (limit : Nat) : (fresh limit).Follows [.added none] where
  arises := @Arises.performed [] (.added none) .nothing nofun
  machine := rfl
  root := Nat.zero_lt_one

namespace Follows

variable {session : Session} {history acts : List Act}

theorem continued {machine : Machine} (follows : session.Follows history)
    (arises : Arises (history ++ acts)) (leads : machine = session.machine.replay acts) :
    ({ session with machine } : Session).Follows (history ++ acts) where
  arises := arises
  machine := by rw [leads, follows.machine, after_append]
  root := Nat.lt_of_lt_of_le follows.root (after_grows (List.prefix_append ..)).scopes

theorem run (follows : session.Follows history) (source : String) :
    (session.run source).2.Follows (history ++ session.runActs source) := by
  unfold Session.run runActs
  cases session.read source with
  | error failure =>
      rw [List.append_nil]
      exact follows
  | ok program =>
      have arises := follows.arises.evaluated follows.root session.limit program
      rw [← follows.machine] at arises
      exact follows.continued arises (congrArg Prod.snd (evaluate_outcome ..))

theorem call (follows : session.Follows history) {callee : Value} {arguments : List Value}
    (known : ∀ value ∈ callee :: arguments, value.Known history) :
    (session.call callee arguments).2.Follows
      (history ++ (callChronicle session.limit callee arguments session.machine).acts) := by
  have arises := follows.arises.called known session.limit
  rw [← follows.machine] at arises
  exact follows.continued arises (congrArg Prod.snd (apply_outcome ..))

theorem set (follows : session.Follows history) (name : String) {value : Value}
    (known : value.Known history) :
    (session.set name value).Follows (history ++ [.bound session.root name value]) := by
  have admitted : Admits history (.bound session.root name value) := ⟨follows.root, known⟩
  exact follows.continued (follows.arises.performed admitted) rfl

theorem takePrinted (follows : session.Follows history) :
    session.takePrinted.2.Follows (history ++ [.taken]) := by
  have admitted : Admits history .taken := trivial
  exact follows.continued (follows.arises.performed admitted) rfl

end Follows

theorem Comes.follows {limit : Nat} {session : Session} {history : List Act}
    (comes : Comes limit session history) : session.Follows history := by
  induction comes with
  | fresh => exact fresh_follows limit
  | ran before source ih => exact ih.run source
  | called before known ih => exact ih.call known
  | set before name known ih => exact ih.set name known
  | taken before ih => exact ih.takePrinted

end Marmoset.Session
