import Marmoset.Proofs.Text.Encoding
import Marmoset.Workspace.Uri

/-!
Addresses tell files apart. Every byte of a path can be read back from its address, so no two paths have
the same one.
-/

namespace Marmoset.Uri

theorem hexValue?_upperHexDigit : ∀ value < 16, hexValue? (upperHexDigit value) = some value := by
  decide

theorem encodeChar_ascii : ∀ byte < 0x80, Text.encodeChar (Char.ofNat byte) = [byte] := by
  decide

theorem isPlain_ascii {byte : Nat} (plain : isPlain byte = true) : byte < 0x80 ∧ byte ≠ 0x25 := by
  simp only [isPlain, Bool.or_eq_true, Bool.and_eq_true, decide_eq_true_eq] at plain
  omega

theorem decodeBytes_plain {c : Char} (other : c ≠ '%') (rest : List Char) :
    decodeBytes (c :: rest) = Text.encodeChar c ++ decodeBytes rest := by
  rw [decodeBytes]
  rintro a b more rfl
  contradiction

theorem decodeBytes_encodeByte {byte : Nat} (small : byte < 256) (rest : List Char) :
    decodeBytes (encodeByte byte ++ rest) = byte :: decodeBytes rest := by
  unfold encodeByte
  split
  · next plain =>
      rcases isPlain_ascii plain with ⟨ascii, unescaped⟩
      have code := encodeChar_ascii byte ascii
      have other : Char.ofNat byte ≠ '%' := by
        intro same
        rw [same] at code
        exact unescaped (List.singleton_inj.mp code.symm)
      rw [List.singleton_append, decodeBytes_plain other, code, List.singleton_append]
  · have high := hexValue?_upperHexDigit (byte / 16) (by omega)
    have low := hexValue?_upperHexDigit (byte % 16) (by omega)
    simp only [List.cons_append, List.nil_append, decodeBytes, high, low]
    rw [Nat.div_add_mod']

theorem decodeBytes_encode {bytes : List Nat} (small : ∀ byte ∈ bytes, byte < 256) :
    decodeBytes (bytes.flatMap encodeByte) = bytes := by
  induction bytes with
  | nil => rfl
  | cons byte bytes ih =>
      rw [List.forall_mem_cons] at small
      rw [List.flatMap_cons, decodeBytes_encodeByte small.1, ih small.2]

/-- Different paths have different addresses. -/
theorem ofPath_injective : Function.Injective ofPath := by
  intro path other same
  have written : (Text.encode path).flatMap encodeByte = (Text.encode other).flatMap encodeByte := by
    have tails := (String.append_right_inj _).mp same
    exact String.ofList_injective tails
  apply Text.encode_injective
  rw [← decodeBytes_encode (Text.encode_small path), written, decodeBytes_encode (Text.encode_small other)]

end Marmoset.Uri
