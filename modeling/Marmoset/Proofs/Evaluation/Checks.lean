import Marmoset.Proofs.Evaluation.Chronicle

/-!
Errors are never caught. Wherever an agenda asks for the value of a node, it hands an error on at once; so
once an evaluation has failed, everything around it fails in the same way, and nothing else is done.
-/

namespace Marmoset

/-- An evaluation gives an error, or stops. -/
inductive Fails : Except Stop Value → Prop
  | error (fault : Fault) : Fails (.ok (.error fault))
  | stop (stop : Stop) : Fails (.error stop)

/-- A result hands a failure on, where `give` says what stands for an error. -/
inductive HandedOn {α : Type} (give : Fault → α) : Except Stop Value → Except Stop α → Prop
  | error (fault : Fault) : HandedOn give (.ok (.error fault)) (.ok (give fault))
  | stop (stop : Stop) : HandedOn give (.error stop) (.error stop)

/-- Behind an evaluation that fails, the ones around it end in the same way, and nothing else is done. -/
def Chronicle.Uncaught {α : Type} (give : Fault → α) (chronicle : Chronicle α) : Prop :=
  ∀ result earlier later, Fails result → chronicle.acts = earlier ++ .left result :: later →
    HandedOn give result chronicle.result ∧ ∀ act ∈ later, act = .left result

namespace Agenda

/-- Every error that is asked for is handed on, and nothing is done before that. -/
inductive Checks {α : Type} (give : Fault → α) : Agenda α → Prop
  | finish (result : Except Stop α) : Checks give (finish result)
  | ask {calls : Nat} {scope : ScopeId} {node : Node} {next : Value → Agenda α}
      (checked : ∀ fault, next (.error fault) = .finish (.ok (give fault)))
      (rest : ∀ value, Checks give (next value)) : Checks give (act (.ask calls scope node) next)
  | other {request : Request} {next : request.Answer → Agenda α}
      (unasked : ∀ calls scope node, request ≠ .ask calls scope node)
      (rest : ∀ answer, Checks give (next answer)) : Checks give (act request next)

variable {α β : Type} {give : Fault → α} {handed : Fault → β}

theorem checks_pure (value : α) : Checks give (pure value : Agenda α) := .finish _

theorem checks_room {calls : Nat} {next : Unit → Agenda α} (rest : ∀ answer, Checks give (next answer)) :
    Checks give (room calls >>= next) :=
  .other nofun rest

theorem checks_make {content : Content} : Checks Value.error (make content) :=
  .other nofun checks_pure

theorem Checks.bind {agenda : Agenda α} {following : α → Agenda β} (checks : agenda.Checks give)
    (checked : ∀ fault, following (give fault) = pure (handed fault))
    (rest : ∀ value, (following value).Checks handed) : (agenda >>= following).Checks handed := by
  change (agenda.andThen following).Checks handed
  induction checks with
  | finish result =>
      cases result with
      | error stop => exact .finish _
      | ok value => exact rest value
  | ask inside _ ih =>
      refine .ask (fun fault => ?_) ih
      rw [inside]
      exact checked fault
  | other unasked _ ih => exact .other unasked ih

theorem checks_ask {calls : Nat} {scope : ScopeId} {node : Node} {following : Value → Agenda β}
    (checked : ∀ fault, following (.error fault) = pure (handed fault))
    (rest : ∀ value, (following value).Checks handed) :
    (ask calls scope node >>= following).Checks handed :=
  .ask checked rest

end Agenda

open Agenda

namespace Builtin

theorem refuse_checks (calls : Nat) (reason : Fault) : (refuse calls reason).Checks Value.error :=
  checks_room fun _ => checks_pure _

theorem newArray_checks (elements : List Value) : (newArray elements).Checks Value.error :=
  checks_room fun _ => checks_make

theorem onArray_checks (builtin : Builtin) (arguments : List Value) {next : List Value → Agenda Value}
    (rest : ∀ elements, (next elements).Checks Value.error) :
    (onArray builtin arguments next).Checks Value.error := by
  unfold onArray
  split
  · exact rest _
  · exact refuse_checks _ _
  · exact refuse_checks _ _

theorem measure_checks (arguments : List Value) : (measure arguments).Checks Value.error := by
  unfold measure
  split
  · exact checks_room fun _ => checks_pure _
  · exact checks_room fun _ => checks_pure _
  · exact refuse_checks _ _
  · exact refuse_checks _ _

theorem append_checks (arguments : List Value) : (append arguments).Checks Value.error := by
  unfold append
  split
  · exact newArray_checks _
  · exact refuse_checks _ _
  · exact refuse_checks _ _

theorem printAll_checks (values : List Value) {next : Unit → Agenda Value}
    (rest : ∀ answer, (next answer).Checks Value.error) :
    (printAll values >>= next).Checks Value.error := by
  induction values with
  | nil => exact rest ()
  | cons value values ih => exact checks_room fun _ => .other nofun fun _ => ih

theorem apply_checks (builtin : Builtin) (arguments : List Value) :
    (builtin.apply arguments).Checks Value.error := by
  apply checks_room
  intro _
  cases builtin with
  | len => exact measure_checks arguments
  | first => exact onArray_checks _ _ fun _ => checks_pure _
  | last => exact onArray_checks _ _ fun _ => checks_pure _
  | rest =>
      apply onArray_checks
      intro elements
      cases elements with
      | nil => exact checks_pure _
      | cons element elements => exact newArray_checks elements
  | push => exact append_checks arguments
  | puts => exact printAll_checks arguments fun _ => checks_pure _

end Builtin

namespace Evaluation

variable (scope : ScopeId)

theorem sequence_checks (last : Value) (nodes : List Node) :
    (sequence scope last nodes).Checks Value.error := by
  induction nodes generalizing last with
  | nil => exact checks_pure last
  | cons node nodes ih =>
      refine checks_ask (fun fault => rfl) fun value => ?_
      split
      · exact checks_pure value
      · exact ih value

theorem all_checks (values : List Value) (nodes : List Node) :
    (all scope values nodes).Checks fun fault => [.error fault] := by
  induction nodes generalizing values with
  | nil => exact checks_pure values
  | cons node nodes ih =>
      refine checks_ask (fun fault => rfl) fun value => ?_
      split
      · exact checks_pure [value]
      · exact ih (values ++ [value])

theorem expressions_checks (nodes : List Node) :
    (expressions scope nodes).Checks fun fault => [.error fault] :=
  checks_room fun _ => all_checks scope [] nodes

theorem entries_checks (written : Entries) (pairs : List (Node × Node)) :
    (entries scope written pairs).Checks Value.error := by
  induction pairs generalizing written with
  | nil => exact checks_room fun _ => checks_make
  | cons pair pairs ih =>
      refine checks_ask (fun fault => rfl) fun keyValue => ?_
      split
      · exact checks_pure keyValue
      · split
        · exact checks_pure _
        · refine checks_ask (fun fault => rfl) fun value => ?_
          split
          · exact checks_pure value
          · exact ih _

theorem resolve_checks (name : String) : (resolve scope name).Checks Value.error :=
  checks_room fun _ => .other nofun fun _ => checks_pure _

theorem assignAll_checks (names : List Name) (values : List Value) {next : Unit → Agenda Value}
    (rest : ∀ answer, (next answer).Checks Value.error) :
    (assignAll scope names values >>= next).Checks Value.error := by
  induction names generalizing values with
  | nil => exact rest ()
  | cons name names ih =>
      cases values with
      | nil => exact rest ()
      | cons value values => exact .other nofun fun _ => ih values

theorem call_checks (callee : Value) (arguments : List Value) :
    (call callee arguments).Checks Value.error := by
  cases callee with
  | function identity parameters body home =>
      rw [call]
      split
      · exact checks_room fun _ => checks_pure _
      · refine checks_room fun _ => .other nofun fun own => ?_
        refine assignAll_checks own parameters arguments fun _ => ?_
        exact checks_ask (fun fault => rfl) fun value => checks_pure _
  | builtin builtin => exact builtin.apply_checks arguments
  | _ => exact checks_room fun _ => checks_pure _

/-- Every position in which a node is evaluated checks for errors. -/
theorem step_checks (node : Node) : (step scope node).Checks Value.error := by
  cases node with
  | program statements =>
      refine checks_room fun _ => ?_
      exact (sequence_checks scope .null statements).bind (fun fault => rfl) fun value => checks_pure _
  | block statements line => exact checks_room fun _ => sequence_checks scope .null statements
  | statement expression line => exact .ask (fun fault => rfl) checks_pure
  | returning value line =>
      refine checks_ask (fun fault => rfl) fun value => ?_
      split
      · exact checks_pure value
      · exact checks_make
  | binding name value line =>
      refine checks_ask (fun fault => rfl) fun value => ?_
      split
      · exact checks_pure value
      · exact .other nofun fun _ => checks_pure _
  | integer value line => exact checks_room fun _ => checks_pure _
  | string value line => exact checks_room fun _ => checks_pure _
  | boolean value line => exact checks_room fun _ => checks_pure _
  | array elements line =>
      refine (expressions_checks scope elements).bind (fun fault => rfl) fun values => ?_
      split
      · exact checks_pure _
      · exact checks_make
  | map pairs line => exact checks_room fun _ => entries_checks scope [] pairs
  | function parameters body line => exact checks_room fun _ => checks_make
  | identifier name => exact resolve_checks scope name.text
  | unary operator operand line =>
      refine checks_ask (fun fault => rfl) fun operand => ?_
      split
      · exact checks_pure operand
      · exact checks_room fun _ => checks_pure _
  | binary left operator right line =>
      refine checks_ask (fun fault => rfl) fun left => ?_
      split
      · exact checks_pure left
      · refine checks_ask (fun fault => rfl) fun right => ?_
        split
        · exact checks_pure right
        · exact checks_room fun _ => checks_pure _
  | conditional condition consequence alternative line =>
      refine checks_ask (fun fault => rfl) fun value => ?_
      split
      · exact checks_pure value
      · split
        · exact .ask (fun fault => rfl) checks_pure
        · cases alternative with
          | none => exact checks_pure _
          | some node => exact .ask (fun fault => rfl) checks_pure
  | call callee arguments line =>
      refine checks_ask (fun fault => rfl) fun callee => ?_
      split
      · exact checks_pure callee
      · refine (expressions_checks scope arguments).bind (fun fault => rfl) fun values => ?_
        split
        · exact checks_pure _
        · exact call_checks callee values
  | index container position line =>
      refine checks_ask (fun fault => rfl) fun container => ?_
      split
      · exact checks_pure container
      · refine checks_ask (fun fault => rfl) fun position => ?_
        split
        · exact checks_pure position
        · exact checks_room fun _ => checks_pure _
  | foreign leaf => exact checks_room fun _ => .finish _

end Evaluation

section Chronicles

open Chronicle

variable {α β : Type} {give : Fault → α} {handed : Fault → β}

theorem HandedOn.value {give : Fault → α} {result : Except Stop Value} {value : α}
    (handedOn : HandedOn give result (.ok value)) :
    ∃ fault, result = .ok (.error fault) ∧ value = give fault := by
  cases handedOn with
  | error fault => exact ⟨fault, rfl, rfl⟩

theorem Fails.handedOn {result : Except Stop Value} (fails : Fails result) :
    HandedOn Value.error result result := by
  cases fails with
  | error fault => exact .error fault
  | stop stop => exact .stop stop

theorem HandedOn.same {result other : Except Stop Value} (handedOn : HandedOn Value.error result other) :
    other = result := by
  cases handedOn <;> rfl

theorem Chronicle.Uncaught.following {chronicle : Chronicle α} (uncaught : chronicle.Uncaught give)
    {acts : List Act} (plain : ∀ result, .left result ∉ acts) :
    (chronicle.following acts).Uncaught give := by
  intro result earlier later fails shape
  rcases List.append_eq_append_iff.mp shape with ⟨more, -, rest⟩ | ⟨more, inside, rest⟩
  · exact uncaught result more later fails rest
  · cases more with
    | nil => exact uncaught result [] later fails rest.symm
    | cons act more =>
        rcases List.cons.inj rest with ⟨rfl, -⟩
        exact absurd (inside ▸ List.mem_append_right _ List.mem_cons_self) (plain result)

theorem Chronicle.Uncaught.andThen {chronicle : Chronicle α} (uncaught : chronicle.Uncaught give)
    {machine : Machine} {continued : α → Machine → Chronicle β}
    (checked : ∀ fault after, continued (give fault) after = ⟨.ok (handed fault), []⟩)
    (rest : ∀ value after, (continued value after).Uncaught handed) :
    (chronicle.andThen machine continued).Uncaught handed := by
  rcases chronicle with ⟨stop | value, acts⟩
  · intro result earlier later fails shape
    rcases uncaught result earlier later fails shape with ⟨handedOn, same⟩
    cases handedOn
    exact ⟨.stop stop, same⟩
  · intro result earlier later fails shape
    rcases List.append_eq_append_iff.mp shape with ⟨more, -, behind⟩ | ⟨more, inside, behind⟩
    · exact rest value _ result more later fails behind
    · cases more with
      | nil => exact rest value _ result [] later fails behind.symm
      | cons act more =>
          -- the failure is among the first acts, so the value is the error that it is handed on as
          rcases List.cons.inj behind with ⟨rfl, others⟩
          rcases uncaught result earlier more fails inside with ⟨handedOn, same⟩
          rcases handedOn.value with ⟨fault, rfl, rfl⟩
          rw [checked fault] at others
          obtain rfl : later = more := others.trans (List.append_nil more)
          rw [Chronicle.andThen, checked fault]
          exact ⟨.error fault, same⟩

theorem Chronicle.Uncaught.between {chronicle : Chronicle Value}
    (uncaught : chronicle.Uncaught Value.error) (frames : Nat) (scope : ScopeId) (node : Node) :
    (chronicle.between frames scope node).Uncaught Value.error := by
  intro result earlier later fails shape
  cases earlier with
  | nil => cases (List.cons.inj shape).1
  | cons act earlier =>
      have inside : chronicle.acts ++ [.left chronicle.result] = earlier ++ .left result :: later :=
        (List.cons.inj shape).2
      rcases List.eq_nil_or_concat later with rfl | ⟨others, last, rfl⟩
      · have own : chronicle.result = result :=
          Act.left.inj (List.cons.inj (List.append_inj' inside rfl).2).1
        exact ⟨own ▸ fails.handedOn, nofun⟩
      · rw [List.concat_eq_append, ← List.cons_append, ← List.append_assoc] at inside
        rcases List.append_inj' inside rfl with ⟨before, same⟩
        rcases uncaught result earlier others fails before with ⟨handedOn, ends⟩
        refine ⟨handedOn, ?_⟩
        rw [List.concat_eq_append, ← (List.cons.inj same).1, handedOn.same]
        exact List.forall_mem_append.mpr ⟨ends, List.forall_mem_singleton.mpr rfl⟩

/-- What checks its errors catches none. -/
theorem Agenda.Checks.uncaught {inner : Nat → ScopeId → Node → Machine → Chronicle Value} {frames : Nat}
    (uncaught : ∀ less ≤ frames, ∀ scope node machine,
      (inner less scope node machine).Uncaught Value.error)
    {agenda : Agenda α} (checks : agenda.Checks give) (machine : Machine) :
    (agenda.chronicle inner frames machine).Uncaught give := by
  induction checks generalizing machine with
  | finish result =>
      intro left earlier later fails shape
      cases List.append_eq_nil_iff.mp shape.symm |>.2
  | @ask calls scope node next checked rest ih =>
      refine (uncaught _ (Nat.sub_le ..) scope node machine).andThen (fun fault after => ?_) ih
      rw [checked]
      rfl
  | @other request next unasked rest ih =>
      have plain (result) : .left result ∉ (request.chronicle inner frames machine).acts := by
        cases request with
        | ask calls scope node => exact absurd rfl (unasked calls scope node)
        | _ => simp [Request.chronicle]
      rw [chronicle]
      rcases told : request.chronicle inner frames machine with ⟨stop | answer, acts⟩
      · rw [told] at plain
        intro left earlier later fails shape
        exact absurd (shape ▸ List.mem_append_right _ List.mem_cons_self) (plain left)
      · rw [told] at plain
        exact (ih answer _).following plain

end Chronicles

namespace Evaluation

theorem chronicle_uncaught (frames : Nat) (scope : ScopeId) (node : Node) (machine : Machine) :
    (chronicle frames scope node machine).Uncaught Value.error := by
  induction frames using Nat.strongRecOn generalizing scope node machine with
  | ind frames ih =>
    cases frames with
    | zero =>
        have spent : (Chronicle.mk (.error .exhausted) []).Uncaught Value.error := by
          intro result earlier later fails shape
          cases List.append_eq_nil_iff.mp shape.symm |>.2
        exact spent.between 0 scope node
    | succ frames =>
        rw [chronicle_succ]
        refine Chronicle.Uncaught.between ?_ (frames + 1) scope node
        exact (step_checks scope node).uncaught (fun less enough => ih less (Nat.lt_succ_of_le enough)) machine

/-- No error is caught, and no stop: where an evaluation inside another one gives an error or stops, the
one around it gives the same error or stops for the same reason, on the same machine, and all that
happens before is that the evaluations in between end in this way. -/
theorem stop_uncaught (frames : Nat) (scope : ScopeId) (node : Node) (machine : Machine) :
    (chronicle frames scope node machine).outcome machine =
        (evaluate frames scope node).outcome machine ∧
      ∀ result earlier later, Fails result →
        (chronicle frames scope node machine).acts = earlier ++ .left result :: later →
        (evaluate frames scope node).outcome machine = (result, machine.replay earlier) ∧
          ∀ act ∈ later, act = .left result := by
  have same := evaluate_outcome frames scope node machine
  refine ⟨same.symm, fun result earlier later fails shape => ?_⟩
  rcases chronicle_uncaught frames scope node machine result earlier later fails shape with
    ⟨handedOn, ends⟩
  have unchanged : machine.replay (earlier ++ .left result :: later) = machine.replay earlier := by
    rw [machine.replay_append, List.eq_replicate_of_mem ends]
    generalize machine.replay earlier = middle
    induction later.length with
    | zero => rfl
    | succ number ih => exact ih
  refine ⟨?_, ends⟩
  rw [same, Chronicle.outcome, shape, unchanged]
  rw [handedOn.same]

/-- `fn() { x }() + puts(1)`, where `x` has no binding. -/
def unboundSum : Node :=
  .binary (.call (.function [] (.block [.statement (.identifier ⟨"x", 1, 7⟩) 1] 1) 1) [] 1) .add
    (.call (.identifier ⟨"puts", 1, 15⟩) [.integer 1 1] 1) 1

/-- The error in the body of the called function ends the statement, the body, the call and the sum, and
nothing is printed. -/
theorem unboundSum_uncaught : ∃ earlier later : List Act,
    (chronicle 20 0 unboundSum ⟨#[⟨[], none⟩], 0, ""⟩).acts =
        earlier ++ .left (.ok (.error (.unbound "x"))) :: later ∧ later.length = 4 ∧
      (evaluate 20 0 unboundSum).outcome ⟨#[⟨[], none⟩], 0, ""⟩ =
        (.ok (.error (.unbound "x")), ⟨#[⟨[], none⟩, ⟨[], some 0⟩], 1, ""⟩) := by
  let acts := (chronicle 20 0 unboundSum ⟨#[⟨[], none⟩], 0, ""⟩).acts
  have shape : acts = acts.take 9 ++ .left (.ok (.error (.unbound "x"))) :: acts.drop 10 := by rfl
  have four : (acts.drop 10).length = 4 := by decide +kernel
  exact ⟨acts.take 9, acts.drop 10, shape, four,
    ((stop_uncaught 20 0 unboundSum ⟨#[⟨[], none⟩], 0, ""⟩).2 _ _ _ (.error _) shape).1⟩

end Evaluation

end Marmoset
