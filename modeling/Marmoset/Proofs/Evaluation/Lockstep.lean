import Marmoset.Proofs.Evaluation.Simulation

/-!
Evaluation in lockstep. In a closed simulation, every node asks for the same things on both sides, so
evaluations that begin side by side stay side by side, and calls do. What an evaluation keeps is shown from
this for every form of node at once.
-/

namespace Marmoset

namespace Simulation

variable {sim : Simulation} (closed : sim.Closed) {world : sim.World} {quiet : Prop}
include closed

def Taken (sim : Simulation) (world : sim.World) (value other : Value) : Prop :=
  sim.value world value other ∧ sim.granted value

omit closed in
theorem error_inStep (fault : Fault) :
    sim.InStep (fun later => sim.Gives later quiet) world (pure (.error fault)) (pure (.error fault)) :=
  pure_inStep (.error fault)

omit closed in
theorem refuse_inStep (calls : Nat) (reason : Fault) :
    sim.InStep (fun later => sim.Gives later quiet) world (Builtin.refuse calls reason)
      (Builtin.refuse calls reason) :=
  .room (error_inStep reason)

theorem computed_inStep {value : Value} (computed : value.Computed) :
    sim.InStep (fun later => sim.Gives later quiet) world (pure value) (pure value) :=
  pure_inStep (.value (closed.computed computed))

theorem checked_inStep {inner : Node} {value other : Value}
    (gives : sim.Gives world (sim.quiet inner) value other) (silent : sim.quiet inner)
    {next next' : Agenda Value}
    (rest : sim.value world value other →
      sim.InStep (fun later => sim.Gives later quiet) world next next') :
    sim.InStep (fun later => sim.Gives later quiet) world
      (if value.isError then pure value else next) (if other.isError then pure other else next') := by
  rw [gives.isError closed]
  split
  · next failed =>
      rcases gives.failed closed failed with ⟨fault, rfl, rfl⟩
      exact error_inStep fault
  · next proper => exact rest (gives.proper silent (Bool.eq_false_iff.mpr proper))

section Builtins

variable {arguments others : List Value}

omit closed in
theorem newArray_inStep {elements away : List Value}
    (inside : List.Forall₂ (sim.value world) elements away) :
    sim.InStep (fun later => sim.Gives later quiet) world (Builtin.newArray elements)
      (Builtin.newArray away) :=
  .room (.make (.array inside) fun _ _ _ _ made => pure_inStep (.value (made nofun)))

theorem onArray_inStep (builtin : Builtin) (alike : List.Forall₂ (sim.Taken world) arguments others)
    {next next' : List Value → Agenda Value}
    (rest : ∀ elements away, List.Forall₂ (sim.value world) elements away →
      sim.InStep (fun later => sim.Gives later quiet) world (next elements) (next' away)) :
    sim.InStep (fun later => sim.Gives later quiet) world (Builtin.onArray builtin arguments next)
      (Builtin.onArray builtin others next') := by
  cases alike with
  | nil => exact refuse_inStep _ _
  | cons head tail =>
      cases tail with
      | nil =>
          have twin := closed.value_twin head.1
          cases twin with
          | array inside => exact rest _ _ inside
          | _ => exact refuse_inStep _ _
      | cons second tail =>
          simp only [Builtin.onArray, List.length_cons, tail.length_eq]
          exact refuse_inStep _ _

theorem measure_inStep (alike : List.Forall₂ (sim.Taken world) arguments others) :
    sim.InStep (fun later => sim.Gives later quiet) world (Builtin.measure arguments)
      (Builtin.measure others) := by
  cases alike with
  | nil => exact refuse_inStep _ _
  | cons head tail =>
      cases tail with
      | nil =>
          have counted := closed.counted head.1 head.2
          have twin := closed.value_twin head.1
          cases twin with
          | string text => exact .room (pure_inStep (.value counted))
          | array inside =>
              simp only [Builtin.measure, ← inside.length_eq]
              exact .room (pure_inStep (.value counted))
          | _ => exact refuse_inStep _ _
      | cons second tail =>
          simp only [Builtin.measure, List.length_cons, tail.length_eq]
          exact refuse_inStep _ _

theorem append_inStep (alike : List.Forall₂ (sim.Taken world) arguments others) :
    sim.InStep (fun later => sim.Gives later quiet) world (Builtin.append arguments)
      (Builtin.append others) := by
  cases alike with
  | nil => exact refuse_inStep _ _
  | cons head tail =>
      have twin := closed.value_twin head.1
      cases tail with
      | nil => cases twin <;> exact refuse_inStep _ _
      | cons second tail =>
          cases tail with
          | nil =>
              cases twin with
              | array inside =>
                  exact newArray_inStep (List.rel_append inside (.cons second.1 .nil))
              | _ => exact refuse_inStep _ _
          | cons third tail =>
              simp only [Builtin.append, List.length_cons, tail.length_eq]
              exact refuse_inStep _ _

theorem printAll_inStep (alike : List.Forall₂ (sim.Taken world) arguments others) {next next' : Agenda Value}
    (rest : ∀ later, sim.Later world later →
      sim.InStep (fun last => sim.Gives last quiet) later next next') :
    sim.InStep (fun later => sim.Gives later quiet) world (Builtin.printAll arguments >>= fun _ => next)
      (Builtin.printAll others >>= fun _ => next') := by
  induction arguments generalizing world others with
  | nil =>
      cases alike
      exact rest world .refl
  | cons value values ih =>
      rcases List.forall₂_cons_left_iff.mp alike with ⟨other, away, head, tail, rfl⟩
      have same := closed.inspect head.1
      have frames := closed.inspectFrames head.1
      change sim.InStep _ world (.act (.room (2 + value.inspectFrames)) _)
        (.act (.room (2 + other.inspectFrames)) _)
      rw [frames]
      refine .room ?_
      change sim.InStep _ world (.act (.print (value.inspect ++ "\n")) _)
        (.act (.print (other.inspect ++ "\n")) _)
      rw [same]
      refine .print fun later more => ih ?_ fun last further => rest last (more.trans further)
      exact tail.imp fun _ _ taken => ⟨closed.value_later taken.1 more, taken.2⟩

theorem builtin_inStep (builtin : Builtin) (alike : List.Forall₂ (sim.Taken world) arguments others) :
    sim.InStep (fun later => sim.Gives later quiet) world (builtin.apply arguments)
      (builtin.apply others) := by
  have null : sim.value world .null .null := closed.computed .null
  refine .room ?_
  cases builtin with
  | len => exact measure_inStep closed alike
  | first =>
      refine onArray_inStep closed _ alike fun elements away inside => ?_
      simp only [List.head?_eq_getElem?]
      exact pure_inStep (.value (Value.getD_null null (Value.elements_getElem? inside 0)))
  | last =>
      refine onArray_inStep closed _ alike fun elements away inside => ?_
      simp only [List.getLast?_eq_getElem?, inside.length_eq]
      exact pure_inStep (.value (Value.getD_null null (Value.elements_getElem? inside _)))
  | rest =>
      refine onArray_inStep closed _ alike fun elements away inside => ?_
      cases inside with
      | nil => exact pure_inStep (.value null)
      | cons head tail => exact newArray_inStep tail
  | push => exact append_inStep closed alike
  | puts =>
      exact printAll_inStep closed alike fun later _ => computed_inStep closed .null

end Builtins

open Evaluation

section Parts

variable {own other : ScopeId}

theorem sequence_inStep {nodes away : List Node} (alike : List.Forall₂ (fun inner inner' =>
      sim.node world own other inner inner' ∧ (quiet → sim.quiet inner)) nodes away)
    {last last' : Value} (gives : sim.Gives world quiet last last') :
    sim.InStep (fun later => sim.Gives later quiet) world (sequence own last nodes)
      (sequence other last' away) := by
  induction nodes generalizing world away last last' with
  | nil =>
      cases alike
      exact pure_inStep gives
  | cons node nodes ih =>
      rcases List.forall₂_cons_left_iff.mp alike with ⟨node', away, ⟨asked, silent⟩, tail, rfl⟩
      refine .ask asked fun later value value' more _ given => ?_
      have loud := given.mono silent
      change sim.InStep _ later
        (if value.isReturned || value.isError then pure value else sequence own value nodes)
        (if value'.isReturned || value'.isError then pure value' else sequence other value' away)
      rw [given.isReturned closed, given.isError closed]
      split
      · exact pure_inStep loud
      · exact ih (tail.imp fun _ _ both => ⟨closed.node_later both.1 more, both.2⟩) loud

theorem program_inStep {nodes away : List Node} (alike : List.Forall₂ (sim.node world own other) nodes away) :
    sim.InStep (fun later => sim.Gives later quiet) world
      (sequence own .null nodes >>= fun value => pure value.unwrap)
      (sequence other .null away >>= fun value => pure value.unwrap) := by
  have loud : List.Forall₂ (fun inner inner' =>
      sim.node world own other inner inner' ∧ (False → sim.quiet inner)) nodes away :=
    alike.imp fun _ _ asked => ⟨asked, False.elim⟩
  refine (sequence_inStep closed loud (.value (closed.computed .null))).bind ?_
  exact fun later value value' _ gives => pure_inStep (gives.unwrap closed)

/-- The values of expressions, none of which is an error, or the one error that is there instead. -/
def Gathered (sim : Simulation) (world : sim.World) (values others : List Value) : Prop :=
  (∃ fault, values = [.error fault] ∧ others = [.error fault]) ∨
    List.Forall₂ (sim.Taken world) values others ∧ ∀ value ∈ values, value.isError = false

theorem all_inStep {nodes away : List Node} (alike : List.Forall₂ (fun inner inner' =>
      sim.node world own other inner inner' ∧ sim.quiet inner) nodes away)
    {values others : List Value} (taken : List.Forall₂ (sim.Taken world) values others)
    (proper : ∀ value ∈ values, value.isError = false) :
    sim.InStep sim.Gathered world (all own values nodes) (all other others away) := by
  induction nodes generalizing world away values others with
  | nil =>
      cases alike
      exact pure_inStep (.inr ⟨taken, proper⟩)
  | cons node nodes ih =>
      rcases List.forall₂_cons_left_iff.mp alike with ⟨node', away, ⟨asked, silent⟩, tail, rfl⟩
      refine .ask asked fun later value value' more granted given => ?_
      change sim.InStep _ later (if value.isError then pure [value] else all own (values ++ [value]) nodes)
        (if value'.isError then pure [value'] else all other (others ++ [value']) away)
      rw [given.isError closed]
      split
      · next failed =>
          rcases given.failed closed failed with ⟨fault, rfl, rfl⟩
          exact pure_inStep (.inl ⟨fault, rfl, rfl⟩)
      · next passed =>
          have clean := Bool.eq_false_iff.mpr passed
          refine ih (tail.imp fun _ _ both => ⟨closed.node_later both.1 more, both.2⟩) ?_ ?_
          · refine List.rel_append (taken.imp fun _ _ old => ⟨closed.value_later old.1 more, old.2⟩) ?_
            exact .cons ⟨given.proper silent clean, granted⟩ .nil
          · exact List.forall_mem_append.mpr ⟨proper, List.forall_mem_singleton.mpr clean⟩

theorem expressions_inStep {nodes away : List Node} (alike : List.Forall₂ (fun inner inner' =>
      sim.node world own other inner inner' ∧ sim.quiet inner) nodes away) :
    sim.InStep sim.Gathered world (expressions own nodes) (expressions other away) :=
  .room (all_inStep closed alike .nil nofun)

theorem Gathered.failure? {values others : List Value} (gathered : sim.Gathered world values others) :
    (∃ fault, Evaluation.failure? values = some (.error fault) ∧
        Evaluation.failure? others = some (.error fault)) ∨
      Evaluation.failure? values = none ∧ Evaluation.failure? others = none ∧
        List.Forall₂ (sim.Taken world) values others := by
  rcases gathered with ⟨fault, rfl, rfl⟩ | ⟨taken, proper⟩
  · exact .inl ⟨fault, rfl, rfl⟩
  · refine .inr ?_
    cases taken with
    | nil => exact ⟨rfl, rfl, .nil⟩
    | cons head tail =>
        cases tail with
        | nil =>
            have clean := proper _ List.mem_cons_self
            have same := (closed.value_twin head.1).isError
            simp only [Evaluation.failure?, same, clean]
            exact ⟨rfl, rfl, .cons head .nil⟩
        | cons second tail => exact ⟨rfl, rfl, .cons head (.cons second tail)⟩

theorem entries_inStep {pairs away : List (Node × Node)} (alike : List.Forall₂ (fun pair pair' =>
      (sim.node world own other pair.1 pair'.1 ∧ sim.quiet pair.1) ∧
        sim.node world own other pair.2 pair'.2 ∧ sim.quiet pair.2) pairs away)
    {written written' : Entries} (before : sim.Written world written written') :
    sim.InStep (fun later => sim.Gives later quiet) world (entries own written pairs)
      (entries other written' away) := by
  induction pairs generalizing world away written written' with
  | nil =>
      cases alike
      exact .room (.make (.hash before) fun _ _ _ _ made => pure_inStep (.value (made nofun)))
  | cons pair pairs ih =>
      rcases List.forall₂_cons_left_iff.mp alike with
        ⟨pair', away, ⟨⟨asked, silent⟩, ⟨also, mute⟩⟩, tail, rfl⟩
      refine .ask asked fun later keyValue keyValue' more _ given => ?_
      refine checked_inStep closed given silent fun alike => ?_
      have twin := closed.value_twin alike
      rw [twin.key?, twin.tag]
      cases keyed : keyValue.key? with
      | none => exact error_inStep _
      | some key =>
          obtain rfl := Value.eq_toValue_of_key? keyed
          obtain rfl := Value.eq_toValue_of_key? (twin.key?.trans keyed)
          refine .ask (closed.node_later also more) fun last value value' further _ given => ?_
          refine checked_inStep closed given mute fun alike' => ?_
          refine ih ?_ (.write (closed.written_later before (more.trans further))
            (closed.value_later alike further) alike')
          exact tail.imp fun _ _ both =>
            ⟨⟨closed.node_later both.1.1 (more.trans further), both.1.2⟩,
              closed.node_later both.2.1 (more.trans further), both.2.2⟩

theorem resolve_inStep {name : String} (scopes : sim.scope world own other) :
    sim.InStep (fun later => sim.Gives later quiet) world (resolve own name) (resolve other name) := by
  refine .room (.look scopes fun found found' same => ?_)
  cases same with
  | some alike => exact pure_inStep (.value alike)
  | none =>
      change sim.InStep _ world (pure (meaning name none)) (pure (meaning name none))
      unfold meaning
      cases Builtin.ofName? name with
      | some builtin => exact computed_inStep closed (.builtin builtin)
      | none => exact error_inStep _

theorem assignAll_inStep {parameters names : List Name}
    (named : parameters.map Name.text = names.map Name.text) {values others : List Value}
    (alike : List.Forall₂ (sim.Taken world) values others)
    (writes : ∀ name, sim.writes world own other name) {next next' : Agenda Value}
    (rest : ∀ later, sim.Later world later →
      sim.InStep (fun last => sim.Gives last quiet) later next next') :
    sim.InStep (fun later => sim.Gives later quiet) world
      (assignAll own parameters values >>= fun _ => next)
      (assignAll other names others >>= fun _ => next') := by
  induction parameters generalizing world names values others with
  | nil =>
      obtain rfl : names = [] := List.map_eq_nil_iff.mp named.symm
      exact rest world .refl
  | cons parameter parameters ih =>
      rcases names with - | ⟨name, names⟩
      · cases named
      · rcases List.cons.inj named with ⟨same, named⟩
        cases alike with
        | nil => exact rest world .refl
        | cons head tail =>
            change sim.InStep _ world (.act (.assign own parameter.text _) _) (.act (.assign other name.text _) _)
            rw [same]
            refine .assign (writes _) head.1 fun later more => ih named ?_ ?_ ?_
            · exact tail.imp fun _ _ taken => ⟨closed.value_later taken.1 more, taken.2⟩
            · exact fun name => closed.writes_later (writes name) more
            · exact fun last further => rest last (more.trans further)

theorem call_inStep {callee callee' : Value} {arguments others : List Value}
    (called : sim.value world callee callee') (alike : List.Forall₂ (sim.Taken world) arguments others) :
    sim.InStep (fun later => sim.Gives later quiet) world (call callee arguments)
      (call callee' others) := by
  have twin := closed.value_twin called
  cases twin with
  | @function identity identity' parameters names own away home abroad same captured =>
      have named := closed.named same
      have many : names.length = parameters.length := by
        rw [← List.length_map, ← named, List.length_map]
      simp only [call, alike.length_eq, many]
      split
      · exact .room (error_inStep _)
      · refine .room (.enclose captured fun later inner inner' more opens => ?_)
        refine assignAll_inStep closed named ?_ opens.writes fun last further => ?_
        · exact alike.imp fun _ _ taken => ⟨closed.value_later taken.1 more, taken.2⟩
        · refine .ask ((closed.opens_later opens further).node same) fun final value value' _ _ given => ?_
          exact pure_inStep (given.unwrap closed)
  | builtin builtin => exact builtin_inStep closed builtin alike
  | _ => exact .room (error_inStep _)

end Parts

theorem computed_results {result result' : Except Fault Value} (same : result' = result)
    (computed : ∀ value, result = .ok value → value.Computed) :
    Results (sim.value world) result result' := by
  rw [same]
  cases result with
  | error reason => exact .error reason
  | ok value => exact .ok (closed.computed (computed value rfl))

omit closed in
theorem results_inStep {calls : Nat} {result result' : Except Fault Value}
    (results : Results (sim.value world) result result') :
    sim.InStep (fun later => sim.Gives later quiet) world
      (Agenda.room calls >>= fun _ => pure (Value.ofExcept result))
      (Agenda.room calls >>= fun _ => pure (Value.ofExcept result')) := by
  refine .room ?_
  cases results with
  | error reason => exact error_inStep reason
  | ok alike => exact pure_inStep (.value alike)

/-- Every node asks for the same things on both sides. -/
theorem step_inStep {own other : ScopeId} {node away : Node}
    (nodes : sim.node world own other node away) :
    sim.InStep (fun later => sim.Gives later (sim.quiet node)) world (step own node) (step other away) := by
  have scopes := closed.node_scope nodes
  have null : sim.value world .null .null := closed.computed .null
  cases closed.node_twin nodes with
  | program inside => exact .room (program_inStep closed inside)
  | block inside => exact .room (sequence_inStep closed inside (.value null))
  | statement inside =>
      exact .ask inside.1 fun later value value' _ _ gives => pure_inStep (gives.mono inside.2)
  | returning inside =>
      refine .ask inside.1 fun later value value' _ _ gives => ?_
      refine checked_inStep closed gives inside.2 fun alike => ?_
      refine .make (.returned alike) fun last identity identity' further made => pure_inStep ?_
      by_cases marked : sim.marked
      · exact .value (made fun _ => marked)
      · exact .returned marked (fun silent => marked (closed.returning nodes silent))
          (closed.value_later alike further)
  | @binding name name' inner inner' line place named inside =>
      refine .ask inside.1 fun later value value' more _ gives => ?_
      refine checked_inStep closed gives inside.2 fun alike => ?_
      rw [← named]
      refine .assign (closed.writes_later (closed.binding nodes) more) alike fun last _ => ?_
      exact computed_inStep closed .null
  | integer value => exact .room (pure_inStep (.value (closed.integer nodes)))
  | string value => exact .room (computed_inStep closed (.string value))
  | boolean value => exact .room (computed_inStep closed (.boolean value))
  | array inside =>
      refine InStep.bind (expressions_inStep closed inside) fun later values values' _ gathered => ?_
      rcases gathered.failure? closed with ⟨fault, failed, failed'⟩ | ⟨passed, passed', taken⟩
      · rw [failed, failed']
        exact error_inStep fault
      · rw [passed, passed']
        exact .make (.array (taken.imp fun _ _ both => both.1)) fun _ _ _ _ made =>
          pure_inStep (.value (made nofun))
  | map inside => exact .room (entries_inStep closed inside .none)
  | function same =>
      exact .room (.make (.function same scopes) fun _ _ _ _ made =>
        pure_inStep (.value (made nofun)))
  | identifier named =>
      simp only [step, named]
      exact resolve_inStep closed scopes
  | unary operator inside =>
      refine .ask inside.1 fun later operand operand' _ _ gives => ?_
      refine checked_inStep closed gives inside.2 fun alike => ?_
      exact results_inStep (computed_results closed (operator.onOne_twin (closed.value_twin alike))
        fun _ => Operator.onOne_computed)
  | binary operator first second =>
      refine .ask first.1 fun later left left' more _ gives => ?_
      refine checked_inStep closed gives first.2 fun alike => ?_
      refine .ask (closed.node_later second.1 more) fun last right right' further _ gives => ?_
      refine checked_inStep closed gives second.2 fun alike' => ?_
      have before := closed.value_later alike further
      have twin := closed.value_twin before
      have twin' := closed.value_twin alike'
      simp only [operatorCalls, twin.tag, twin'.tag]
      exact results_inStep (computed_results closed
        (operator.onBoth_twin twin twin' (closed.identical before alike')) fun _ => Operator.onBoth_computed)
  | conditional tested chosen rejected =>
      refine .ask tested.1 fun later value value' more _ gives => ?_
      refine checked_inStep closed gives tested.2 fun alike => ?_
      rw [(closed.value_twin alike).truthy]
      split
      · exact .ask (closed.node_later chosen.1 more) fun last value value' _ _ gives =>
          pure_inStep (gives.mono chosen.2)
      · cases rejected with
        | none => exact computed_inStep closed .null
        | some alternative =>
            exact .ask (closed.node_later alternative.1 more) fun last value value' _ _ gives =>
              pure_inStep (gives.mono alternative.2)
  | call called inside =>
      refine .ask called.1 fun later callee callee' more _ gives => ?_
      refine checked_inStep closed gives called.2 fun alike => ?_
      refine InStep.bind (expressions_inStep closed
        (inside.imp fun _ _ both => ⟨closed.node_later both.1 more, both.2⟩))
        fun last values values' further gathered => ?_
      rcases gathered.failure? closed with ⟨fault, failed, failed'⟩ | ⟨passed, passed', taken⟩
      · rw [failed, failed']
        exact error_inStep fault
      · rw [passed, passed']
        exact call_inStep closed (closed.value_later alike further) taken
  | index first second =>
      refine .ask first.1 fun later container container' more _ gives => ?_
      refine checked_inStep closed gives first.2 fun alike => ?_
      refine .ask (closed.node_later second.1 more) fun last position position' further _ gives => ?_
      refine checked_inStep closed gives second.2 fun alike' => ?_
      have twin := closed.value_twin (closed.value_later alike further)
      have twin' := closed.value_twin alike'
      simp only [indexCalls, twin.tag, twin'.key?]
      exact results_inStep (Value.indexed_twin twin twin' (closed.computed .null))
  | foreign leaf => exact .room (.finish (.unknownNode (closed.foreign nodes)))

/-- Evaluations that begin side by side stay side by side. -/
theorem Closed.running (frames : Nat) : sim.Running frames := by
  induction frames using Nat.strongRecOn with
  | ind frames ih =>
    intro world own other node away machine machine' nodes held granted
    cases frames with
    | zero => exact .between closed nodes held fun entered => ⟨.nil entered, .exhausted⟩
    | succ frames =>
        rw [chronicle_succ] at granted ⊢
        rw [chronicle_succ]
        refine .between closed nodes held fun entered => ?_
        have inStep := step_inStep closed (closed.node_kept (.entered (frames + 1) own node) nodes)
        refine inStep.tells closed (fun less enough => ih less (Nat.lt_succ_of_le enough)) entered ?_
        exact fun value member => granted value (List.mem_cons_of_mem _ (List.mem_append_left _ member))

theorem Closed.calling (frames : Nat) {callee callee' : Value} {arguments others : List Value}
    (called : sim.value world callee callee') (alike : List.Forall₂ (sim.Taken world) arguments others)
    {machine machine' : Machine} (held : sim.machine world machine machine')
    (granted : sim.Granted (callChronicle frames callee arguments machine).acts) :
    sim.Tells (fun later => sim.Gives later True) world machine machine'
      (callChronicle frames callee arguments machine) (callChronicle frames callee' others machine') :=
  (call_inStep closed called alike).tells closed (fun less _ => closed.running less) held granted

end Simulation

end Marmoset
