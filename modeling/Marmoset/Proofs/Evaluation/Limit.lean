import Marmoset.Proofs.Evaluation.Outcome
import Marmoset.Proofs.Session.Runs

/-!
What the limit of the stack decides. An evaluation that ends within a limit ends in the same way, on the
same machine, within any larger one. An evaluation that is broken off has printed nothing that a larger
limit takes back: its text is the beginning of what is printed then.
-/

namespace Marmoset

namespace Eval

variable {α β : Type}

def Prints (eval : Eval α) : Prop :=
  ∀ machine, ∃ text, (eval.outcome machine).2.printed = machine.printed ++ text

theorem prints_of_same {eval : Eval α}
    (same : ∀ machine, (eval.outcome machine).2.printed = machine.printed) : eval.Prints :=
  fun machine => ⟨"", (same machine).trans String.append_empty.symm⟩

theorem Prints.bind {eval : Eval α} {next : α → Eval β} (first : eval.Prints)
    (rest : ∀ value, (next value).Prints) : (eval >>= next).Prints := by
  intro machine
  rcases first machine with ⟨text, begun⟩
  rw [outcome_bind]
  rcases outcome : eval.outcome machine with ⟨stop | value, after⟩
  · rw [outcome] at begun
    exact ⟨text, begun⟩
  · rw [outcome] at begun
    rcases rest value after with ⟨more, printed⟩
    exact ⟨text ++ more, by rw [printed, begun, String.append_assoc]⟩

/-- An evaluation that is broken off, and what is printed where it goes on. -/
structure BrokenOff (small large : Except Stop α × Machine) : Prop where
  exhausted : small.1 = .error .exhausted
  begun : ∃ text, large.2.printed = small.2.printed ++ text

/-- The evaluation on a smaller stack: it is broken off, or it is the same. -/
def Within (small large : Eval α) : Prop :=
  ∀ machine, BrokenOff (small.outcome machine) (large.outcome machine) ∨
    large.outcome machine = small.outcome machine

theorem Within.refl (eval : Eval α) : eval.Within eval := fun _ => .inr rfl

theorem exhausted_within {large : Eval α} (prints : large.Prints) :
    (throw .exhausted : Eval α).Within large :=
  fun machine => .inl ⟨rfl, prints machine⟩

theorem Within.bind {small large : Eval α} {first second : α → Eval β} (within : small.Within large)
    (continued : ∀ value, (first value).Within (second value))
    (prints : ∀ value, (second value).Prints) : (small >>= first).Within (large >>= second) := by
  intro machine
  rw [outcome_bind, outcome_bind]
  rcases within machine with ⟨exhausted, text, begun⟩ | same
  · rcases broken : small.outcome machine with ⟨result, after⟩
    rw [broken] at exhausted begun
    obtain rfl : result = .error .exhausted := exhausted
    rcases whole : large.outcome machine with ⟨stop | value, later⟩
    · rw [whole] at begun
      exact .inl ⟨rfl, text, begun⟩
    · rw [whole] at begun
      rcases prints value later with ⟨more, printed⟩
      exact .inl ⟨rfl, text ++ more, by rw [printed, begun, String.append_assoc]⟩
  · rw [same]
    rcases small.outcome machine with ⟨stop | value, after⟩
    · exact .inr rfl
    · exact continued value after

end Eval

open Eval

section Stacks

variable {α : Type} {small large : Nat → ScopeId → Node → Eval Value} {frames more : Nat}

theorem Request.perform_prints (prints : ∀ less ≤ more, ∀ scope node, (large less scope node).Prints)
    (request : Request) : (request.perform large more).Prints := by
  cases request with
  | room calls =>
      simp only [perform]
      split
      · exact prints_of_same fun _ => rfl
      · exact prints_of_same fun _ => rfl
  | ask calls scope node => exact prints _ (Nat.sub_le ..) scope node
  | print text => exact fun machine => ⟨text, rfl⟩
  | _ => exact prints_of_same fun _ => rfl

theorem Agenda.run_prints (prints : ∀ less ≤ more, ∀ scope node, (large less scope node).Prints)
    (agenda : Agenda α) : (agenda.run large more).Prints := by
  induction agenda with
  | finish result => cases result <;> exact prints_of_same fun _ => rfl
  | act request next ih => exact (request.perform_prints prints).bind ih

/-- An agenda passes on that a call above it is broken off; where there is no room for it, it is broken off
itself. -/
theorem Agenda.run_within (order : frames ≤ more)
    (prints : ∀ less ≤ more, ∀ scope node, (large less scope node).Prints)
    (inside : ∀ calls scope node,
      (small (frames - calls) scope node).Within (large (more - calls) scope node))
    (agenda : Agenda α) : (agenda.run small frames).Within (agenda.run large more) := by
  induction agenda with
  | finish result => cases result <;> exact .refl _
  | act request next ih =>
      have performed : (request.perform small frames).Within (request.perform large more) := by
        cases request with
        | room calls =>
            by_cases enough : calls ≤ frames
            · simp only [Request.perform, if_pos enough, if_pos (Nat.le_trans enough order)]
              exact .refl _
            · rw [Request.perform, if_neg enough]
              exact exhausted_within (Request.perform_prints prints _)
        | ask calls scope node => exact inside calls scope node
        | _ => exact .refl _
      exact performed.bind ih fun answer => (next answer).run_prints prints

end Stacks

namespace Evaluation

theorem evaluate_prints (frames : Nat) (scope : ScopeId) (node : Node) :
    (evaluate frames scope node).Prints := by
  induction frames using Nat.strongRecOn generalizing scope node with
  | ind frames ih =>
    cases frames with
    | zero => exact prints_of_same fun _ => rfl
    | succ frames =>
        rw [evaluate_succ]
        exact (step scope node).run_prints fun less enough => ih less (Nat.lt_succ_of_le enough)

theorem evaluate_within {less more : Nat} (order : less ≤ more) (scope : ScopeId) (node : Node) :
    (evaluate less scope node).Within (evaluate more scope node) := by
  induction less using Nat.strongRecOn generalizing more scope node with
  | ind less ih =>
    cases less with
    | zero => exact exhausted_within (evaluate_prints more scope node)
    | succ less =>
        cases more with
        | zero => exact absurd order (Nat.not_succ_le_zero less)
        | succ more =>
            have below := Nat.le_of_succ_le_succ order
            rw [evaluate_succ, evaluate_succ]
            refine (step scope node).run_within below (fun frames _ => evaluate_prints frames) ?_
            intro calls own inner
            exact ih (less - calls) (Nat.lt_succ_of_le (Nat.sub_le ..))
              (Nat.sub_le_sub_right below calls) own inner

end Evaluation

open Evaluation

/-- An evaluation that does not exhaust a stack gives the same result on a larger one and leaves the same
machine; otherwise, what it prints is the beginning of what is printed on the larger one. A session shows
this, with the exhausted stack as an error value. -/
theorem larger_limit_conservative (less more : Nat) (order : less ≤ more) (node : Node) :
    (∀ (scope : ScopeId) (machine : Machine),
      let small := (evaluate less scope node).outcome machine
      let large := (evaluate more scope node).outcome machine
      (small.1 ≠ .error .exhausted → large = small) ∧
        (small.1 = .error .exhausted → ∃ text, large.2.printed = small.2.printed ++ text)) ∧
    ∀ session : Session,
      let small := ({ session with limit := less } : Session).evaluate node
      let large := ({ session with limit := more } : Session).evaluate node
      (small.1 ≠ .ok (.error .stackExhausted) → large.1 = small.1 ∧ large.2.machine = small.2.machine) ∧
        ∃ text, large.2.machine.printed = small.2.machine.printed ++ text := by
  constructor
  · intro scope machine small large
    have within : BrokenOff small large ∨ large = small := evaluate_within order scope node machine
    rcases within with broken | same
    · exact ⟨fun finished => absurd broken.exhausted finished, fun _ => broken.begun⟩
    · rw [same]
      exact ⟨fun _ => rfl, fun _ => ⟨"", String.append_empty.symm⟩⟩
  · intro session small large
    simp only [small, large, Session.evaluate_eq]
    rcases evaluate_within order session.root node session.machine with broken | same
    · refine ⟨fun finished => absurd ?_ finished, broken.begun⟩
      rw [broken.exhausted]
      rfl
    · rw [same]
      exact ⟨fun _ => ⟨rfl, rfl⟩, "", String.append_empty.symm⟩

/-- `let f = fn() { puts(1); f() }; f()`: the function calls itself for ever, and prints a line each
time. -/
def runaway : Node :=
  .program
    [.binding ⟨"f", 1, 4⟩
        (.function []
          (.block
            [.statement (.call (.identifier ⟨"puts", 1, 15⟩) [.integer 1 1] 1) 1,
              .statement (.call (.identifier ⟨"f", 1, 24⟩) [] 1) 1] 1) 1) 1,
      .statement (.call (.identifier ⟨"f", 1, 32⟩) [] 1) 1]

/-- On a small stack the function prints two lines before the stack is exhausted, and these come first on
a larger one; a sum, which needs four frames, is the same on both. -/
theorem runaway_conservative :
    let machine : Machine := ⟨#[⟨[], none⟩], 0, ""⟩
    let small := (evaluate 18 0 runaway).outcome machine
    let sum := Node.binary (.integer 1 1) .add (.integer 2 1) 1
    18 ≤ 1000 ∧ small.1 = .error .exhausted ∧ small.2.printed = "1\n1\n" ∧
      (∃ text, ((evaluate 1000 0 runaway).outcome machine).2.printed = "1\n1\n" ++ text) ∧
      (evaluate 1000 0 sum).outcome machine = (.ok (.integer 3), machine) := by
  intro machine small sum
  have order : 18 ≤ 1000 := by decide
  have exhausted : small.1 = .error .exhausted := rfl
  have printed : small.2.printed = "1\n1\n" := by decide +kernel
  have summed : (evaluate 18 0 sum).outcome machine = (.ok (.integer 3), machine) := rfl
  refine ⟨order, exhausted, printed, ?_, ?_⟩
  · rw [← printed]
    exact ((larger_limit_conservative 18 1000 order runaway).1 0 machine).2 exhausted
  · rw [← summed]
    apply ((larger_limit_conservative 18 1000 order sum).1 0 machine).1
    rw [summed]
    nofun

end Marmoset
