import Marmoset.Session

/-!
Runs of a session: a source is rejected and changes nothing, or its program is evaluated in the root
scope; and sources may be run one after another.
-/

namespace Marmoset

/-- What an evaluation in a session shows to the outside: a stack that does not suffice is an error
value. -/
def Stop.shown : Except Stop Value → Except Failure Value
  | .error .exhausted => .ok (.error .stackExhausted)
  | result => conclude result

theorem Stop.shown_ok {result : Except Stop Value} {value : Value} (shown : Stop.shown result = .ok value) :
    result = .ok value ∨ ∃ fault, value = .error fault := by
  cases result with
  | ok other =>
      cases shown
      exact .inl rfl
  | error stop =>
      cases stop with
      | exhausted =>
          cases shown
          exact .inr ⟨.stackExhausted, rfl⟩
      | unknownNode leaf => cases shown

theorem Stop.shown_known {result : Except Stop Value} (known : ∀ leaf, result ≠ .error (.unknownNode leaf)) :
    ∃ value, Stop.shown result = .ok value := by
  cases result with
  | ok value => exact ⟨value, rfl⟩
  | error stop =>
      cases stop with
      | exhausted => exact ⟨.error .stackExhausted, rfl⟩
      | unknownNode leaf => exact absurd rfl (known leaf)

namespace Session

def fresh (limit : Nat) : Session := { new with limit }

theorem evaluate_eq (session : Session) (node : Node) : session.evaluate node =
    (Stop.shown ((Evaluation.evaluate session.limit session.root node).outcome session.machine).1,
      { session with
        machine := ((Evaluation.evaluate session.limit session.root node).outcome session.machine).2 }) :=
  rfl

theorem run_of_clean {session : Session} {source : String} {statements : List Node}
    (clean : Grammar.read session.limit source = .ok ⟨statements, []⟩) :
    session.run source = session.evaluate (.program statements) := by
  have program : session.read source = .ok (.program statements) := by
    rw [read, clean]
    rfl
  rw [run, program]

theorem run_of_malformed {session : Session} {source : String} {error : Text.IntegerError}
    (malformed : Grammar.read session.limit source = .error error) :
    session.run source = (.error (.badInteger error), session) := by
  rw [run, read, malformed]

theorem run_cases (session : Session) (source : String) :
    (∃ failure, session.run source = (.error failure, session)) ∨
      ∃ statements, Grammar.read session.limit source = .ok ⟨statements, []⟩ ∧
        session.run source = session.evaluate (.program statements) := by
  cases result : Grammar.read session.limit source with
  | error error => exact .inl ⟨.badInteger error, run_of_malformed result⟩
  | ok reading =>
      rcases reading with ⟨statements, diagnostics⟩
      cases diagnostics with
      | nil => exact .inr ⟨statements, rfl, run_of_clean result⟩
      | cons diagnostic others =>
          refine .inl ⟨.rejected (Reading.errors ⟨statements, diagnostic :: others⟩) session.file, ?_⟩
          rw [run, read, result]
          rfl

theorem run_frame (session : Session) (source : String) :
    (session.run source).2 = { session with machine := (session.run source).2.machine } := by
  rcases session.run_cases source with ⟨failure, run⟩ | ⟨statements, -, run⟩
  · rw [run]
  · rw [run, evaluate_eq]

def runAll (session : Session) : List String → List (Except Failure Value) × Session
  | [] => ([], session)
  | source :: sources =>
    let (result, session) := session.run source
    let (results, last) := session.runAll sources
    (result :: results, last)

end Session

end Marmoset
