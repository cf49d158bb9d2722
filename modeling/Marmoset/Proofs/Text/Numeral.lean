import Marmoset.Text.Integer
import Mathlib.Data.List.TakeWhile

/-!
Numerals: nothing but decimal digits, and no more of them than an integer may have. Reading one
gives the number that it denotes in positional notation.
-/

namespace Marmoset.Text

/-- A text of 1 to 4300 decimal digits that denotes a number. -/
def Numeral (literal : String) (value : Nat) : Prop :=
  ∃ digits : List Nat, literal.toList.map digitValue? = digits.map some ∧
    digits ≠ [] ∧ digits.length ≤ 4300 ∧ decimal digits = value

theorem digit_range (c : Char) (digit : Nat) (shown : digitValue? c = some digit) :
    ∃ base ∈ zeros, ∃ offset < 10, c.toNat = base + offset := by
  rcases Option.map_eq_some_iff.mp shown with ⟨base, found, -⟩
  have member := List.mem_of_find?_eq_some found
  have inside := List.find?_some found
  simp only [Bool.and_eq_true, decide_eq_true_eq] at inside
  exact ⟨base, member, c.toNat - base, by omega, by omega⟩

theorem digit_plain (c : Char) (digit : Nat) (shown : digitValue? c = some digit) :
    isPadding c = false ∧ c ≠ '-' ∧ c ≠ '+' ∧ c ≠ '_' := by
  rcases digit_range c digit shown with ⟨base, member, offset, small, place⟩
  have spaces : ∀ base ∈ zeros, ∀ offset < 10,
      ((0x09 ≤ base + offset && base + offset ≤ 0x0d) ||
        (0x1c ≤ base + offset && base + offset ≤ 0x20) || base + offset = 0x85 ||
        base + offset = 0xa0 || base + offset = 0x1680 ||
        (0x2000 ≤ base + offset && base + offset ≤ 0x200a) || base + offset = 0x2028 ||
        base + offset = 0x2029 || base + offset = 0x202f || base + offset = 0x205f ||
        base + offset = 0x3000) = false := by decide
  have marks : ∀ base ∈ zeros, ∀ offset < 10,
      base + offset ≠ 0x2d ∧ base + offset ≠ 0x2b ∧ base + offset ≠ 0x5f := by decide
  rcases marks base member offset small with ⟨minus, plus, underscore⟩
  refine ⟨?_, ?_, ?_, ?_⟩
  · have blank : isSpace c = false := by
      simpa only [isSpace, place] using spaces base member offset small
    simp only [isPadding, blank, Bool.false_and]
  · rintro rfl
    exact minus place.symm
  · rintro rfl
    exact plus place.symm
  · rintro rfl
    exact underscore place.symm

theorem digits_shown (text : List Char) (digits : List Nat)
    (shown : text.map digitValue? = digits.map some) :
    ∀ c ∈ text, ∃ digit, digitValue? c = some digit := by
  intro c member
  have image : digitValue? c ∈ digits.map some := shown ▸ List.mem_map_of_mem member
  rcases List.mem_map.mp image with ⟨digit, -, equal⟩
  exact ⟨digit, equal.symm⟩

theorem digits?_of_shown (text : List Char) (digits : List Nat) (nonempty : digits ≠ [])
    (shown : text.map digitValue? = digits.map some) : digits? text = some digits := by
  have plain := digits_shown text digits shown
  fun_induction digits? text generalizing digits with
  | case1 =>
      cases digits with
      | nil => exact absurd rfl nonempty
      | cons digit digits => simp at shown
  | case2 c =>
      cases digits with
      | nil => exact absurd rfl nonempty
      | cons digit digits =>
          simp only [List.map_cons, List.map_nil, List.cons.injEq, List.nil_eq,
            List.map_eq_nil_iff] at shown
          rw [shown.1, shown.2]
          rfl
  | case3 c rest =>
      rcases plain '_' (by simp) with ⟨digit, value⟩
      exact absurd rfl (digit_plain '_' digit value).2.2.2
  | case4 c next rest apart ih =>
      cases digits with
      | nil => exact absurd rfl nonempty
      | cons digit digits =>
          rw [List.map_cons (f := some), List.map_cons, List.cons.injEq] at shown
          have more : digits ≠ [] := by
            rintro rfl
            simp at shown
          have tail := ih digits more shown.2 fun d member => plain d (List.mem_cons_of_mem c member)
          rw [shown.1, tail]
          rfl

theorem signed_of_digit (c : Char) (rest : List Char) (digit : Nat)
    (shown : digitValue? c = some digit) : signed (c :: rest) = (false, c :: rest) := by
  rcases digit_plain c digit shown with ⟨-, minus, plus, -⟩
  unfold signed
  split
  · next text equal => exact absurd (List.cons.inj equal).1 minus
  · next text equal => exact absurd (List.cons.inj equal).1 plus
  · rfl

theorem readInteger_shown (literal : String) (digits : List Nat) (nonempty : digits ≠ [])
    (shown : literal.toList.map digitValue? = digits.map some) :
    readInteger literal = if digits.length > digitMax then .error (.tooManyDigits digits.length)
      else .ok (decimal digits) := by
  have plain := digits_shown literal.toList digits shown
  have numerals : ∀ c ∈ literal.toList, isNumeral c = true := by
    intro c member
    rcases plain c member with ⟨digit, value⟩
    simp [isNumeral, value]
  have digitsRead := digits?_of_shown literal.toList digits nonempty shown
  have all : literal.toList.takeWhile isNumeral = literal.toList :=
    List.takeWhile_eq_self_iff.mpr numerals
  have none : literal.toList.dropWhile isNumeral = [] :=
    List.dropWhile_eq_nil_iff.mpr numerals
  have unsigned : signed (literal.toList.dropWhile isPadding) = (false, literal.toList) := by
    cases text : literal.toList with
    | nil =>
        rw [text, List.map_nil, eq_comm, List.map_eq_nil_iff] at shown
        exact absurd shown nonempty
    | cons c rest =>
        rcases plain c (by simp [text]) with ⟨digit, value⟩
        rw [List.dropWhile_cons_of_neg (by simp [(digit_plain c digit value).1])]
        exact signed_of_digit c rest digit value
  simp only [readInteger, unsigned, all, none, digitsRead, List.all_nil, if_true,
    Bool.false_eq_true, if_false]

/-- A numeral is read as the number that it denotes. -/
theorem readInteger_numeral (literal : String) (value : Nat) (numeral : Numeral literal value) :
    readInteger literal = .ok value := by
  rcases numeral with ⟨digits, shown, nonempty, short, total⟩
  have bounded : ¬ digits.length > digitMax := Nat.not_lt.mpr short
  rw [readInteger_shown literal digits nonempty shown, if_neg bounded, total]

theorem digitValue?_ascii (c : Char) (digit : c.isDigit = true) :
    digitValue? c = some (c.toNat - '0'.toNat) := by
  rw [Char.isDigit_iff_toNat] at digit
  have first : zeros.find? (fun base => base ≤ c.toNat && c.toNat < base + 10) = some '0'.toNat := by
    have inside : (decide ('0'.toNat ≤ c.toNat) && decide (c.toNat < '0'.toNat + 10)) = true := by
      simp only [Bool.and_eq_true, decide_eq_true_eq]
      exact ⟨digit.1, Nat.lt_succ_of_le digit.2⟩
    exact List.find?_cons_of_pos inside
  rw [digitValue?, first]
  rfl

theorem numeral_repr (value : Nat) (small : value ≤ 0x7fffffffffffffff) : Numeral (toString value) value := by
  have digits : ∀ c ∈ Nat.toDigits 10 value, c.isDigit = true :=
    fun c member => Nat.isDigit_of_mem_toDigits (by decide) (by decide) member
  have few : (Nat.toDigits 10 value).length ≤ 19 :=
    (Nat.length_toDigits_le_iff (by decide) (by decide)).mpr (Nat.lt_of_le_of_lt small (by decide))
  refine ⟨(Nat.toDigits 10 value).map fun c => c.toNat - '0'.toNat, ?_, ?_, ?_, ?_⟩
  · rw [Nat.toString_eq_repr, Nat.toList_repr, List.map_map]
    exact List.map_congr_left fun c member => digitValue?_ascii c (digits c member)
  · simp
  · rw [List.length_map]
    omega
  · rw [decimal, List.foldl_map]
    exact Nat.ofDigitChars_ten_toDigits

end Marmoset.Text
