import Marmoset.Evaluation

/-!
What an evaluation does to the machine, whether it ends in a value or stops; and how agendas are worked
off one behind another.
-/

namespace Marmoset

namespace Eval

variable {α β : Type}

@[simp] theorem outcome_pure (value : α) (machine : Machine) :
    (pure value : Eval α).outcome machine = (.ok value, machine) := rfl

@[simp] theorem outcome_throw (stop : Stop) (machine : Machine) :
    (throw stop : Eval α).outcome machine = (.error stop, machine) := rfl

theorem outcome_bind (eval : Eval α) (next : α → Eval β) (machine : Machine) :
    (eval >>= next).outcome machine =
      match eval.outcome machine with
      | (.ok value, after) => (next value).outcome after
      | (.error stop, after) => (.error stop, after) := by
  have split : (eval >>= next).outcome machine =
      (ExceptT.bindCont next (eval.outcome machine).1 : StateM Machine _) (eval.outcome machine).2 :=
    rfl
  rw [split]
  rcases eval.outcome machine with ⟨stop | value, after⟩
  · rfl
  · rfl

end Eval

section Stacked

variable {γ : Type} (spent : γ) (call : (Nat → γ) → Nat → γ)

/-- The limit does not matter, as long as it is high enough. -/
theorem stacked_of_le {limit frames : Nat} (enough : frames ≤ limit) :
    stacked spent call limit frames = stacked spent call frames frames := by
  induction limit with
  | zero => rw [Nat.le_zero.mp enough]
  | succ limit ih =>
      rcases Nat.le_or_eq_of_le_succ enough with less | rfl
      · rw [stacked, if_pos less, ih less]
      · rfl

theorem stacked_succ (above : ∀ (first second : Nat → γ) (frames : Nat),
      (∀ less ≤ frames, first less = second less) → call first frames = call second frames)
    (frames : Nat) : stacked spent call (frames + 1) (frames + 1) =
      call (fun less => stacked spent call less less) frames := by
  rw [stacked, if_neg (Nat.not_succ_le_self frames)]
  exact above _ _ frames fun less enough => stacked_of_le spent call enough

end Stacked

namespace Agenda

variable {α β : Type} {recur other : Nat → ScopeId → Node → Eval Value}

@[simp] theorem run_pure (value : α) (frames : Nat) :
    (pure value : Agenda α).run recur frames = pure value := rfl

@[simp] theorem run_act (request : Request) (next : request.Answer → Agenda α) (frames : Nat) :
    (act request next).run recur frames =
      request.perform recur frames >>= fun answer => (next answer).run recur frames := rfl

@[simp] theorem run_bind (agenda : Agenda α) (following : α → Agenda β) (frames : Nat) :
    (agenda >>= following).run recur frames =
      agenda.run recur frames >>= fun value => (following value).run recur frames := by
  change (agenda.andThen following).run recur frames = _
  induction agenda with
  | finish result => cases result <;> rfl
  | act request next ih => simp only [andThen, run, bind_assoc, ih]

theorem run_ask (calls : Nat) (scope : ScopeId) (node : Node) (next : Value → Agenda α) (frames : Nat) :
    (ask calls scope node >>= next).run recur frames =
      recur (frames - calls) scope node >>= fun value => (next value).run recur frames := rfl

theorem run_room {calls frames : Nat} (enough : calls ≤ frames) (next : Unit → Agenda α) :
    (room calls >>= next).run recur frames = (next ()).run recur frames := by
  change (if calls ≤ frames then pure () else throw .exhausted : Eval Unit) >>= _ = _
  rw [if_pos enough, pure_bind]
  rfl

theorem run_room_spent {calls frames : Nat} (less : frames < calls) (next : Unit → Agenda α) :
    (room calls >>= next).run recur frames = throw .exhausted := by
  change (if calls ≤ frames then pure () else throw .exhausted : Eval Unit) >>= _ = _
  rw [if_neg (Nat.not_le_of_lt less)]
  rfl

theorem run_congr {agenda : Agenda α} {frames : Nat} (same : ∀ less ≤ frames, recur less = other less) :
    agenda.run recur frames = agenda.run other frames := by
  induction agenda with
  | finish result => cases result <;> rfl
  | act request next ih =>
      have performed : request.perform recur frames = request.perform other frames := by
        cases request with
        | ask calls scope node => exact congrFun (congrFun (same _ (Nat.sub_le ..)) scope) node
        | _ => rfl
      simp only [run, performed, ih]

end Agenda

namespace Evaluation

theorem evaluate_succ (frames : Nat) (scope : ScopeId) (node : Node) :
    evaluate (frames + 1) scope node = (step scope node).run evaluate frames := by
  have unfolded := stacked_succ (fun _ _ => (throw .exhausted : Eval Value))
    (fun recur left scope node => (step scope node).run recur left)
    (fun first second frames same => by
      funext scope node
      exact Agenda.run_congr same) frames
  exact congrFun (congrFun unfolded scope) node

end Evaluation

end Marmoset
