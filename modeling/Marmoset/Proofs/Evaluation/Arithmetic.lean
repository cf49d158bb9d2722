import Mathlib.Data.Int.ModEq
import Marmoset.Proofs.Evaluation.Outcome
import Marmoset.Proofs.Value.Regular

/-!
Integer expressions compute in signed words of 64 bits. A tree of literals, minus signs and the four
operators of arithmetic has a word as its meaning, or a division by zero is reached on the way; evaluation
gives the integer of that word. Where there is no division, this is the exact value reduced once.
-/

namespace Marmoset

inductive Calculation
  | add
  | sub
  | mul
  | div
  deriving DecidableEq, Repr

namespace Calculation

def operator : Calculation → Operator
  | add => .add
  | sub => .sub
  | mul => .mul
  | div => .div

/-- The operation of a machine on two words. -/
def onWords : Calculation → Int64 → Int64 → Except Fault Int64
  | add, left, right => .ok (left + right)
  | sub, left, right => .ok (left - right)
  | mul, left, right => .ok (left * right)
  | div, left, right => if right = 0 then .error .divisionByZero else .ok (left / right)

/-- The operation on integers without bounds. -/
def exact : Calculation → Int → Int → Int
  | add, left, right => left + right
  | sub, left, right => left - right
  | mul, left, right => left * right
  | div, left, right => left.tdiv right

end Calculation

inductive Comparison
  | less
  | greater
  | equal
  | unequal
  deriving DecidableEq, Repr

namespace Comparison

def operator : Comparison → Operator
  | less => .lt
  | greater => .gt
  | equal => .eq
  | unequal => .ne

def holds : Comparison → Int64 → Int64 → Bool
  | less, left, right => left < right
  | greater, left, right => right < left
  | equal, left, right => left = right
  | unequal, left, right => left ≠ right

end Comparison

/-- Trees of arithmetic, with the lines of their tokens. -/
inductive Arithmetic
  | literal (value : Fin 0x8000000000000000) (line : Int)
  | negated (operand : Arithmetic) (line : Int)
  | combined (left : Arithmetic) (calculation : Calculation) (right : Arithmetic) (line : Int)

namespace Arithmetic

def node : Arithmetic → Node
  | literal value line => .integer value line
  | negated operand line => .unary .sub operand.node line
  | combined left calculation right line => .binary left.node calculation.operator right.node line

def frames : Arithmetic → Nat
  | literal _ _ => 2
  | negated operand _ => max operand.frames 2 + 1
  | combined left _ right _ => max (max left.frames right.frames) 3 + 1

/-- What a machine computes: the left operand first, then the right one, then the operation. -/
def word : Arithmetic → Except Fault Int64
  | literal value _ => .ok (Int64.ofNat value)
  | negated operand _ => do return -(← operand.word)
  | combined left calculation right _ => do calculation.onWords (← left.word) (← right.word)

/-- The value in the integers without bounds. -/
def exact : Arithmetic → Int
  | literal value _ => value
  | negated operand _ => -operand.exact
  | combined left calculation right _ => calculation.exact left.exact right.exact

def undivided : Arithmetic → Bool
  | literal _ _ => true
  | negated operand _ => operand.undivided
  | combined left calculation right _ => calculation ≠ .div && left.undivided && right.undivided

/-- A division by zero is reached: in an operand, the right one only where the left one has a value, or
at the node itself where both have. -/
inductive DividesByZero : Arithmetic → Prop
  | inside {operand : Arithmetic} {line : Int} (reached : DividesByZero operand) :
      DividesByZero (.negated operand line)
  | left {left right : Arithmetic} {calculation : Calculation} {line : Int}
      (reached : DividesByZero left) : DividesByZero (.combined left calculation right line)
  | right {left right : Arithmetic} {calculation : Calculation} {line : Int} {word : Int64}
      (passed : left.word = .ok word) (reached : DividesByZero right) :
      DividesByZero (.combined left calculation right line)
  | here {left right : Arithmetic} {line : Int} {word : Int64} (passed : left.word = .ok word)
      (zero : right.word = .ok 0) : DividesByZero (.combined left .div right line)

end Arithmetic

namespace Calculation

theorem onBoth_words (calculation : Calculation) (left right : Int64) :
    calculation.operator.onBoth (.integer left.toInt) (.integer right.toInt) =
      (calculation.onWords left right).map fun word => .integer word.toInt := by
  cases calculation with
  | add => exact congrArg (Except.ok ∘ Value.integer) (Int64.toInt_add left right).symm
  | sub => exact congrArg (Except.ok ∘ Value.integer) (Int64.toInt_sub left right).symm
  | mul => exact congrArg (Except.ok ∘ Value.integer) (Int64.toInt_mul left right).symm
  | div =>
      have zero : right.toInt = 0 ↔ right = 0 := by
        rw [← Int64.toInt_zero, Int64.toInt_inj]
      simp only [operator, Operator.onBoth, Operator.onIntegers, onWords, zero]
      split
      · rfl
      · exact congrArg (Except.ok ∘ Value.integer) (Int64.toInt_div left right).symm

theorem error_of_onWords {calculation : Calculation} {left right : Int64} {reason : Fault}
    (stopped : calculation.onWords left right = .error reason) :
    calculation = div ∧ right = 0 ∧ reason = .divisionByZero := by
  cases calculation with
  | div =>
      simp only [onWords] at stopped
      split at stopped
      · next zero => exact ⟨rfl, zero, (Except.error.inj stopped).symm⟩
      · cases stopped
  | _ => cases stopped

/-- Division goes toward zero; only the least word divided by minus one does not fit. -/
theorem onWords_div (left right : Int64) (divisor : right ≠ 0) :
    ∃ quotient, div.onWords left right = .ok quotient ∧
      quotient.toInt = if left = Int64.minValue ∧ right = -1 then Int64.minValue.toInt
        else left.toInt.tdiv right.toInt := by
  refine ⟨left / right, if_neg divisor, ?_⟩
  split
  · next least =>
      rcases least with ⟨rfl, rfl⟩
      rw [Int64.minValue_div_neg_one]
  · next fits =>
      by_cases least : left = Int64.minValue
      · exact Int64.toInt_div_of_ne_right left right fun minus => fits ⟨least, minus⟩
      · exact Int64.toInt_div_of_ne_left left right least

theorem onWords_exact {calculation : Calculation} {left right : Int64} {first second : Int}
    (other : calculation ≠ div) (same : left.toInt ≡ first [ZMOD 2 ^ 64])
    (alike : right.toInt ≡ second [ZMOD 2 ^ 64]) :
    ∃ word, calculation.onWords left right = .ok word ∧
      word.toInt ≡ calculation.exact first second [ZMOD 2 ^ 64] := by
  cases calculation with
  | add =>
      refine ⟨left + right, rfl, ?_⟩
      rw [Int64.toInt_add]
      exact Int.ModEq.trans Int.bmod_emod (same.add alike)
  | sub =>
      refine ⟨left - right, rfl, ?_⟩
      rw [Int64.toInt_sub]
      exact Int.ModEq.trans Int.bmod_emod (same.sub alike)
  | mul =>
      refine ⟨left * right, rfl, ?_⟩
      rw [Int64.toInt_mul]
      exact Int.ModEq.trans Int.bmod_emod (same.mul alike)
  | div => exact absurd rfl other

end Calculation

theorem inRange_toInt (word : Int64) : InRange word.toInt := by
  have low := word.le_toInt
  have high := word.toInt_lt
  constructor <;> omega

theorem Comparison.onBoth_words (comparison : Comparison) (left right : Int64) :
    comparison.operator.onBoth (.integer left.toInt) (.integer right.toInt) =
      .ok (.boolean (comparison.holds left right)) := by
  cases comparison with
  | less | greater => simp only [operator, Operator.onBoth, Operator.onIntegers, holds,
      Int64.lt_iff_toInt_lt, gt_iff_lt]
  | equal | unequal => simp only [operator, Operator.onBoth, Operator.onIntegers, holds,
      Int64.toInt_inj, ne_eq]

namespace Operator

theorem onOne_word (word : Int64) : sub.onOne (.integer word.toInt) = .ok (.integer (-word).toInt) :=
  congrArg (Except.ok ∘ Value.integer) (Int64.toInt_neg word).symm

end Operator

namespace Evaluation

open Eval

/-- Evaluation of a node ends in a value, or in an error that says why there is none, and leaves the machine
as it was, unless the stack has too few frames, and is exhausted. -/
def Ends (node : Node) (needed : Nat) (result : Except Fault Value) : Prop :=
  ∀ (frames : Nat) (scope : ScopeId) (machine : Machine),
    (evaluate frames scope node).outcome machine = (.ok (.ofExcept result), machine) ∨
      frames < needed ∧ (evaluate frames scope node).outcome machine = (.error .exhausted, machine)

variable {node left right : Node} {needed first second : Nat} {result before behind : Except Fault Value}

theorem room_ends {calls frames : Nat} (machine : Machine) (value : Value) :
    ((Agenda.room calls >>= fun _ => pure value).run evaluate frames).outcome machine = (.ok value, machine) ∨
      frames < calls ∧ ((Agenda.room calls >>= fun _ => pure value).run evaluate frames).outcome machine =
        (.error .exhausted, machine) := by
  rcases Nat.lt_or_ge frames calls with less | enough
  · rw [Agenda.run_room_spent less]
    exact .inr ⟨less, rfl⟩
  · rw [Agenda.run_room enough]
    exact .inl rfl

theorem Ends.unary (operand : Ends node needed result)
    (proper : ∀ value, result = .ok value → value.isError = false) (operator : Operator) (line : Int) :
    Ends (.unary operator node line) (max needed 2 + 1) (result >>= operator.onOne) := by
  intro frames scope machine
  cases frames with
  | zero => exact .inr ⟨Nat.succ_pos _, rfl⟩
  | succ frames =>
      rw [evaluate_succ, step, Agenda.run_ask, outcome_bind, Nat.sub_zero]
      rcases operand frames scope machine with ended | ⟨less, exhausted⟩
      · rw [ended]
        cases result with
        | error reason => exact .inl rfl
        | ok value =>
            simp only [Value.ofExcept, proper value rfl, Bool.false_eq_true, if_false]
            rcases room_ends machine (.ofExcept (operator.onOne value)) with ended | ⟨less, exhausted⟩
            · exact .inl ended
            · exact .inr ⟨Nat.succ_lt_succ (lt_max_of_lt_right less), exhausted⟩
      · rw [exhausted]
        exact .inr ⟨Nat.succ_lt_succ (lt_max_of_lt_left less), rfl⟩

theorem Ends.binary (ends : Ends left first before) (follows : Ends right second behind)
    (proper : ∀ value, before = .ok value ∨ behind = .ok value → value.isError = false)
    (operator : Operator) (line : Int) :
    Ends (.binary left operator right line) (max (max first second) 3 + 1)
      (do operator.onBoth (← before) (← behind)) := by
  intro frames scope machine
  cases frames with
  | zero => exact .inr ⟨Nat.succ_pos _, rfl⟩
  | succ frames =>
      have spent {less : Nat} (below : frames < less) (within : less ≤ max (max first second) 3) :
          frames + 1 < max (max first second) 3 + 1 := Nat.succ_lt_succ (Nat.lt_of_lt_of_le below within)
      rw [evaluate_succ, step, Agenda.run_ask, outcome_bind, Nat.sub_zero]
      rcases ends frames scope machine with ended | ⟨less, exhausted⟩
      · rw [ended]
        cases before with
        | error reason => exact .inl rfl
        | ok a =>
            simp only [Value.ofExcept, proper a (.inl rfl), Bool.false_eq_true, if_false]
            rw [Agenda.run_ask, outcome_bind, Nat.sub_zero]
            rcases follows frames scope machine with ended | ⟨less, exhausted⟩
            · rw [ended]
              cases behind with
              | error reason => exact .inl rfl
              | ok b =>
                  simp only [Value.ofExcept, proper b (.inr rfl), Bool.false_eq_true, if_false]
                  rcases room_ends machine (.ofExcept (operator.onBoth a b)) with ended | ⟨less, exhausted⟩
                  · exact .inl ended
                  · have few : operatorCalls a b ≤ 3 := by
                      rw [operatorCalls]
                      split <;> decide
                    exact .inr ⟨spent less (few.trans (Nat.le_max_right ..)), exhausted⟩
            · rw [exhausted]
              exact .inr ⟨spent less ((Nat.le_max_right ..).trans (Nat.le_max_left ..)), rfl⟩
      · rw [exhausted]
        exact .inr ⟨spent less ((Nat.le_max_left ..).trans (Nat.le_max_left ..)), rfl⟩

end Evaluation

namespace Arithmetic

open Evaluation

def value (term : Arithmetic) : Except Fault Value := term.word.map fun word => .integer word.toInt

theorem value_proper (term : Arithmetic) (value : Value) (result : term.value = .ok value) :
    value.isError = false := by
  rw [Arithmetic.value] at result
  cases word : term.word <;> rw [word] at result <;> cases result
  rfl

theorem operands_proper (left right : Arithmetic) (value : Value)
    (result : left.value = .ok value ∨ right.value = .ok value) : value.isError = false :=
  result.elim (left.value_proper value) (right.value_proper value)

theorem ends (term : Arithmetic) : Ends term.node term.frames term.value := by
  induction term with
  | literal number line =>
      intro frames scope machine
      cases frames with
      | zero => exact .inr ⟨Nat.two_pos, rfl⟩
      | succ frames =>
          have whole : (Int64.ofNat number).toInt = number := Int64.toInt_ofNat_of_lt number.isLt
          rw [value, word, Except.map, whole, node, evaluate_succ, step]
          rcases room_ends machine (.integer number) with ended | ⟨less, exhausted⟩
          · exact .inl ended
          · exact .inr ⟨Nat.succ_lt_succ less, exhausted⟩
  | negated operand line ih =>
      have result : (negated operand line).value = operand.value >>= Operator.sub.onOne := by
        rw [value, value, word]
        cases operand.word with
        | error reason => rfl
        | ok word => exact (Operator.onOne_word word).symm
      rw [result]
      exact ih.unary operand.value_proper .sub line
  | combined left calculation right line ihLeft ihRight =>
      have result : (combined left calculation right line).value =
          (do calculation.operator.onBoth (← left.value) (← right.value)) := by
        rw [value, value, value, word]
        cases left.word with
        | error reason => rfl
        | ok first =>
            cases right.word with
            | error reason => rfl
            | ok second => exact (calculation.onBoth_words first second).symm
      rw [result]
      exact ihLeft.binary ihRight (operands_proper left right) calculation.operator line

def compared (left : Arithmetic) (comparison : Comparison) (right : Arithmetic) : Except Fault Value := do
  return .boolean (comparison.holds (← left.word) (← right.word))

theorem compared_ends (left : Arithmetic) (comparison : Comparison) (right : Arithmetic) (line : Int) :
    Ends (.binary left.node comparison.operator right.node line) (max (max left.frames right.frames) 3 + 1)
      (left.compared comparison right) := by
  have result : left.compared comparison right =
      (do comparison.operator.onBoth (← left.value) (← right.value)) := by
    rw [compared, value, value]
    cases left.word with
    | error reason => rfl
    | ok first =>
        cases right.word with
        | error reason => rfl
        | ok second => exact (comparison.onBoth_words first second).symm
  rw [result]
  exact left.ends.binary right.ends (operands_proper left right) comparison.operator line

theorem DividesByZero.word {term : Arithmetic} (reached : term.DividesByZero) :
    term.word = .error .divisionByZero := by
  induction reached with
  | inside reached ih =>
      rw [Arithmetic.word, ih]
      rfl
  | left reached ih =>
      rw [Arithmetic.word, ih]
      rfl
  | right passed reached ih =>
      rw [Arithmetic.word, passed, ih]
      rfl
  | here passed zero =>
      rw [Arithmetic.word, passed, zero]
      rfl

theorem dividesByZero_of_error {term : Arithmetic} {reason : Fault} (stopped : term.word = .error reason) :
    term.DividesByZero := by
  induction term generalizing reason with
  | literal number line => cases stopped
  | negated operand line ih =>
      rw [word] at stopped
      cases inner : operand.word with
      | error other => exact .inside (ih inner)
      | ok number =>
          rw [inner] at stopped
          cases stopped
  | combined left calculation right line ihLeft ihRight =>
      rw [word] at stopped
      cases before : left.word with
      | error other => exact .left (ihLeft before)
      | ok first =>
          cases behind : right.word with
          | error other => exact .right before (ihRight behind)
          | ok second =>
              rw [before, behind] at stopped
              have operation : calculation.onWords first second = .error reason := stopped
              rcases Calculation.error_of_onWords operation with ⟨rfl, rfl, -⟩
              exact .here before behind

theorem word_exact {term : Arithmetic} (undivided : term.undivided = true) :
    ∃ word, term.word = .ok word ∧ word.toInt ≡ term.exact [ZMOD 2 ^ 64] := by
  induction term with
  | literal number line =>
      refine ⟨_, rfl, ?_⟩
      rw [Int64.toInt_ofNat_of_lt number.isLt]
      rfl
  | negated operand line ih =>
      rcases ih undivided with ⟨word, passed, same⟩
      refine ⟨-word, ?_, ?_⟩
      · rw [Arithmetic.word, passed]
        rfl
      · rw [Int64.toInt_neg]
        exact Int.ModEq.trans Int.bmod_emod same.neg
  | combined left calculation right line ihLeft ihRight =>
      simp only [Arithmetic.undivided, Bool.and_eq_true, decide_eq_true_eq] at undivided
      rcases undivided with ⟨⟨other, first⟩, second⟩
      rcases ihLeft first with ⟨before, passed, same⟩
      rcases ihRight second with ⟨behind, followed, alike⟩
      rcases Calculation.onWords_exact other same alike with ⟨word, operation, reduced⟩
      refine ⟨word, ?_, reduced⟩
      rw [Arithmetic.word, passed, followed]
      exact operation

/-- A tree of arithmetic evaluates to the integer of its word, and the machine stays as it was; only a stack
with too few frames may be exhausted. There is no word just where a division by zero is reached, which is
the error then. Division of words goes toward zero, and the least word divided by minus
one is itself. Without division, the word is the one that agrees with the exact value modulo 2^64.
Comparisons of two trees are those of their words. -/
theorem arithmetic_in_words (term : Arithmetic) :
    Ends term.node term.frames (term.word.map fun word => .integer word.toInt) ∧
      (∀ reason, term.word = .error reason ↔ reason = .divisionByZero ∧ term.DividesByZero) ∧
      Fault.divisionByZero.message = "division by zero" ∧
      (∀ left right : Int64, right ≠ 0 → ∃ quotient, Calculation.div.onWords left right = .ok quotient ∧
        quotient.toInt = if left = Int64.minValue ∧ right = -1 then Int64.minValue.toInt
          else left.toInt.tdiv right.toInt) ∧
      (term.undivided = true → ∃ word, term.word = .ok word ∧ InRange word.toInt ∧
        word.toInt ≡ term.exact [ZMOD 2 ^ 64]) ∧
      ∀ (comparison : Comparison) (other : Arithmetic) (line : Int),
        Ends (.binary term.node comparison.operator other.node line) (max (max term.frames other.frames) 3 + 1)
          (do return .boolean (comparison.holds (← term.word) (← other.word))) := by
  refine ⟨term.ends, fun reason => ⟨fun stopped => ?_, ?_⟩, rfl, Calculation.onWords_div,
    fun undivided => ?_, term.compared_ends⟩
  · have reached := dividesByZero_of_error stopped
    rw [reached.word] at stopped
    exact ⟨(Except.error.inj stopped).symm, reached⟩
  · rintro ⟨rfl, reached⟩
    exact reached.word
  · rcases word_exact undivided with ⟨word, passed, same⟩
    exact ⟨word, passed, inRange_toInt word, same⟩

/-- `4611686018427387904 * 2` is the least word, and so is its quotient by `-1`. -/
theorem doubled_half_in_words :
    let product : Arithmetic := .combined (.literal 4611686018427387904 1) .mul (.literal 2 1) 1
    let quotient : Arithmetic := .combined product .div (.negated (.literal 1 1) 1) 1
    product.undivided = true ∧ product.word = .ok Int64.minValue ∧
      Int64.minValue.toInt ≡ product.exact [ZMOD 2 ^ 64] ∧
      (Evaluation.evaluate 5 0 quotient.node).outcome .empty =
        (.ok (.integer (-9223372036854775808)), .empty) := by
  intro product quotient
  have undivided : product.undivided = true := rfl
  have least : product.word = .ok Int64.minValue := by decide
  rcases (arithmetic_in_words product).2.2.2.2.1 undivided with ⟨word, passed, -, same⟩
  cases Except.ok.inj (passed.symm.trans least)
  refine ⟨undivided, least, same, ?_⟩
  rcases (arithmetic_in_words quotient).1 5 0 .empty with ended | ⟨less, -⟩
  · rw [ended]
    rfl
  · exact absurd less (by decide)

end Arithmetic

end Marmoset
