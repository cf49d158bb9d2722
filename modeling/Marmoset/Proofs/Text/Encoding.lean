import Marmoset.Text.Utf8
import Mathlib.Logic.Function.Basic

/-!
Texts and their bytes. What the bytes of a text are decoded to is the text, so different texts have
different bytes.
-/

namespace Marmoset.Text

theorem decodeAll_skip (bytes rest : List Nat) :
    decodeAll bytes.length (bytes ++ rest) = decodeAll 0 rest := by
  induction bytes with
  | nil => rfl
  | cons byte bytes ih => exact ih

theorem decodeAll_lead {byte bits low high : Nat} {c : Char} {rest : List Nat} (bytes : List Nat)
    (asks : lead? byte = some ⟨bytes.length, bits, low, high⟩)
    (told : continued bytes.length bits low high (bytes ++ rest) = .ok c.toNat) :
    decodeAll 0 (byte :: bytes ++ rest) = c :: decodeAll 0 rest := by
  rw [List.cons_append, decodeAll]
  simp only [asks, told]
  rw [Char.ofNat_toNat, decodeAll_skip]

theorem continued_last {bits low high code : Nat} {rest : List Nat} (same : bits = code) :
    continued 0 bits low high rest = .ok code := by
  subst same
  cases rest with
  | nil => rfl
  | cons byte rest => rfl

theorem continued_next {following bits low high byte code : Nat} {rest : List Nat}
    (above : low ≤ byte) (below : byte ≤ high)
    (told : continued following (bits * 64 + (byte - 0x80)) 0x80 0xbf rest = .ok code) :
    continued (following + 1) bits low high (byte :: rest) = .ok code := by
  rw [continued, if_pos ⟨above, below⟩, told]

theorem lead?_two {n : Nat} (least : 0x80 ≤ n) (most : n < 0x800) :
    lead? (0xc0 + n / 64) = some ⟨1, n / 64, 0x80, 0xbf⟩ := by
  unfold lead?
  rw [if_neg (by omega), if_neg (by omega), if_pos (by omega), Nat.add_sub_cancel_left]

theorem lead?_three {n : Nat} (least : 0x800 ≤ n) (most : n < 0x10000)
    (valid : n < 0xd800 ∨ 0xdfff < n) :
    ∃ low high, lead? (0xe0 + n / 4096) = some ⟨2, n / 4096, low, high⟩ ∧
      low ≤ 0x80 + n / 64 % 64 ∧ 0x80 + n / 64 % 64 ≤ high := by
  by_cases first : n / 4096 = 0
  · exact ⟨0xa0, 0xbf, by simp [lead?, first], by omega, by omega⟩
  by_cases surrogates : n / 4096 = 13
  · exact ⟨0x80, 0x9f, by simp [lead?, surrogates], by omega, by omega⟩
  refine ⟨0x80, 0xbf, ?_, by omega, by omega⟩
  unfold lead?
  rw [if_neg (by omega), if_neg (by omega), if_neg (by omega), if_neg (by omega), if_neg (by omega),
    if_pos (by omega), Nat.add_sub_cancel_left]

theorem lead?_four {n : Nat} (least : 0x10000 ≤ n) (most : n < 0x110000) :
    ∃ low high, lead? (0xf0 + n / 262144) = some ⟨3, n / 262144, low, high⟩ ∧
      low ≤ 0x80 + n / 4096 % 64 ∧ 0x80 + n / 4096 % 64 ≤ high := by
  by_cases first : n / 262144 = 0
  · exact ⟨0x90, 0xbf, by simp [lead?, first], by omega, by omega⟩
  by_cases last : n / 262144 = 4
  · exact ⟨0x80, 0x8f, by simp [lead?, last], by omega, by omega⟩
  refine ⟨0x80, 0xbf, ?_, by omega, by omega⟩
  unfold lead?
  rw [if_neg (by omega), if_neg (by omega), if_neg (by omega), if_neg (by omega), if_neg (by omega),
    if_neg (by omega), if_neg (by omega), if_pos (by omega), Nat.add_sub_cancel_left]

theorem decodeAll_encodeChar (c : Char) (rest : List Nat) :
    decodeAll 0 (encodeChar c ++ rest) = c :: decodeAll 0 rest := by
  have valid : c.toNat < 0xd800 ∨ 0xdfff < c.toNat ∧ c.toNat < 0x110000 := c.valid
  unfold encodeChar
  dsimp only
  split
  · next one => exact decodeAll_lead [] (if_pos one) (continued_last rfl)
  split
  · next two =>
      apply decodeAll_lead [_] (lead?_two (by omega) two)
      exact continued_next (by omega) (by omega) (continued_last (by omega))
  split
  · next three =>
      rcases lead?_three (by omega) three (by omega) with ⟨low, high, asks, above, below⟩
      apply decodeAll_lead [_, _] asks
      apply continued_next above below
      exact continued_next (by omega) (by omega) (continued_last (by omega))
  · next four =>
      have least : 0x10000 ≤ c.toNat := Nat.le_of_not_lt four
      rcases lead?_four least (by omega) with ⟨low, high, asks, above, below⟩
      apply decodeAll_lead [_, _, _] asks
      apply continued_next above below
      apply continued_next (by omega) (by omega)
      exact continued_next (by omega) (by omega) (continued_last (by omega))

/-- The bytes of a text are decoded to the text. -/
theorem decodeAll_encode (text : String) : decodeAll 0 (encode text) = text.toList := by
  rw [encode]
  induction text.toList with
  | nil => rfl
  | cons c rest ih => rw [List.flatMap_cons, decodeAll_encodeChar, ih]

theorem encode_injective : Function.Injective encode := by
  intro text other same
  apply String.toList_injective
  rw [← decodeAll_encode text, same, decodeAll_encode]

theorem encodeChar_small (c : Char) : ∀ byte ∈ encodeChar c, byte < 256 := by
  have valid : c.toNat < 0xd800 ∨ 0xdfff < c.toNat ∧ c.toNat < 0x110000 := c.valid
  intro byte
  unfold encodeChar
  dsimp only
  repeat' split
  all_goals simp only [List.mem_cons, List.not_mem_nil, or_false]
  all_goals omega

theorem encode_small (text : String) : ∀ byte ∈ encode text, byte < 256 := by
  intro byte member
  rcases List.mem_flatMap.mp member with ⟨c, -, inside⟩
  exact encodeChar_small c byte inside

end Marmoset.Text
