/-!
# `StoreBench.Text.Pieces`: cutting a text at a separator
-/

set_option autoImplicit false

namespace StoreBench.Text

/-- The pieces of a text between separators: one more than there are
separators, some possibly empty. -/
def pieces (separator : Char) : List Char → List (List Char)
  | [] => [[]]
  | c :: cs =>
    if c = separator then [] :: pieces separator cs
    else match pieces separator cs with
      | piece :: rest => (c :: piece) :: rest
      | [] => [[c]]

end StoreBench.Text
