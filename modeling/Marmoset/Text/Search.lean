/-!
Texts inside other texts.
-/

namespace Marmoset.Text

def holds (part : List Char) : List Char → Bool
  | [] => part.isEmpty
  | c :: rest => part.isPrefixOf (c :: rest) || holds part rest

end Marmoset.Text
