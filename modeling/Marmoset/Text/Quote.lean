import Marmoset.Text.Printable

/-!
Quoted text: between single quotes, or between double quotes where the text holds a single quote and
no double one. Line breaks, tabs and backslashes are escaped by letter, and any other character that
does not print by its number.
-/

namespace Marmoset.Text

def hexDigit (value : Nat) : Char :=
  if value < 10 then Char.ofNat ('0'.toNat + value) else Char.ofNat ('a'.toNat + (value - 10))

def hex : Nat → Nat → List Char
  | 0, _ => []
  | width + 1, value => hex width (value / 16) ++ [hexDigit (value % 16)]

def singleQuote : Char := Char.ofNat 39

def numbered (value : Nat) : List Char :=
  if value < 0x100 then '\\' :: 'x' :: hex 2 value
  else if value < 0x10000 then '\\' :: 'u' :: hex 4 value
  else '\\' :: 'U' :: hex 8 value

def escaped (quote c : Char) : List Char :=
  if c = quote || c = '\\' then ['\\', c]
  else if c = '\n' then ['\\', 'n']
  else if c = '\r' then ['\\', 'r']
  else if c = '\t' then ['\\', 't']
  else if prints c then [c]
  else numbered c.toNat

def quoteFor (text : List Char) : Char :=
  if text.contains singleQuote && !text.contains '"' then '"' else singleQuote

def quoted (text : String) : String :=
  let quote := quoteFor text.toList
  String.ofList (quote :: text.toList.flatMap (escaped quote) ++ [quote])

theorem hexDigit_prints {value : Nat} (small : value < 16) : prints (hexDigit value) = true := by
  have ascii : ∀ value < 16, 0x20 ≤ (hexDigit value).toNat ∧ (hexDigit value).toNat < 0x7f := by decide
  exact prints_of_ascii (ascii value small).1 (ascii value small).2

theorem hex_prints (width value : Nat) : ∀ c ∈ hex width value, prints c = true := by
  induction width generalizing value with
  | zero => simp [hex]
  | succ width ih =>
      simp only [hex, List.mem_append, List.mem_singleton, or_imp, forall_and, forall_eq]
      exact ⟨ih _, hexDigit_prints (Nat.mod_lt _ (by decide))⟩

theorem marks_print {c : Char} (mark : c ∈ ['\\', 'n', 'r', 't', 'x', 'u', 'U', '"', singleQuote]) :
    prints c = true := by
  have ascii : ['\\', 'n', 'r', 't', 'x', 'u', 'U', '"', singleQuote].all
      (fun c => decide (0x20 ≤ c.toNat) && decide (c.toNat < 0x7f)) = true := by decide
  have bounds := List.all_eq_true.mp ascii c mark
  simp only [Bool.and_eq_true, decide_eq_true_eq] at bounds
  exact prints_of_ascii bounds.1 bounds.2

theorem numbered_prints (value : Nat) : ∀ c ∈ numbered value, prints c = true := by
  unfold numbered
  split
  · simp only [List.forall_mem_cons]
    exact ⟨marks_print (by decide), marks_print (by decide), hex_prints 2 value⟩
  split
  · simp only [List.forall_mem_cons]
    exact ⟨marks_print (by decide), marks_print (by decide), hex_prints 4 value⟩
  · simp only [List.forall_mem_cons]
    exact ⟨marks_print (by decide), marks_print (by decide), hex_prints 8 value⟩

theorem escaped_prints {quote : Char} (marked : prints quote = true) (c : Char) :
    ∀ other ∈ escaped quote c, prints other = true := by
  have pair {first second : Char} (left : prints first = true) (right : prints second = true) :
      ∀ other ∈ [first, second], prints other = true := by simp [left, right]
  unfold escaped
  split
  · next special =>
      refine pair (marks_print (by decide)) ?_
      rcases (by simpa using special : c = quote ∨ c = '\\') with rfl | rfl
      · exact marked
      · exact marks_print (by decide)
  split
  · exact pair (marks_print (by decide)) (marks_print (by decide))
  split
  · exact pair (marks_print (by decide)) (marks_print (by decide))
  split
  · exact pair (marks_print (by decide)) (marks_print (by decide))
  split
  · next plain => simp [plain]
  · exact numbered_prints c.toNat

/-- Whatever a text holds, all characters of its quoted form print. -/
theorem quoted_prints (text : String) : ∀ c ∈ (quoted text).toList, prints c = true := by
  have marked : prints (quoteFor text.toList) = true := by
    unfold quoteFor
    split
    · exact marks_print (by decide)
    · exact marks_print (by decide)
  intro c member
  simp only [quoted, String.toList_ofList, List.cons_append, List.mem_cons, List.mem_append,
    List.mem_flatMap, List.not_mem_nil, or_false] at member
  rcases member with rfl | ⟨inner, _, inside⟩ | rfl
  · exact marked
  · exact escaped_prints marked inner c inside
  · exact marked

end Marmoset.Text
