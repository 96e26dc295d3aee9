/-! Names matched against patterns in which `*` stands for any run of characters. -/

namespace ChronicleMeta.Text.Wildcard

/-- The runs of a pattern between its stars; one more than there are stars. -/
def pieces : List Char → List (List Char)
  | [] => [[]]
  | c :: cs =>
    if c = '*' then [] :: pieces cs
    else match pieces cs with
      | [] => [[c]]
      | p :: ps => (c :: p) :: ps

def dropThrough (piece : List Char) : List Char → Option (List Char)
  | [] => piece.isPrefixOf? []
  | c :: cs =>
    match piece.isPrefixOf? (c :: cs) with
    | some rest => some rest
    | none => dropThrough piece cs

/-- Whether `rest` is made of the pieces, each after any run of characters, the last one at the end. -/
def matchesAfterStar : List (List Char) → List Char → Bool
  | [], rest => rest.isEmpty
  | [last], rest => last.isSuffixOf rest
  | piece :: next :: ps, rest =>
    match dropThrough piece rest with
    | some rest => matchesAfterStar (next :: ps) rest
    | none => false

/-- Whether `name` is `pattern` with each star replaced by some run of characters.
Each piece is taken at its leftmost place, which leaves the most for the pieces after it. -/
def accepts (pattern name : List Char) : Bool :=
  match pieces pattern with
  | [] => false
  | first :: ps =>
    match first.isPrefixOf? name with
    | some rest => matchesAfterStar ps rest
    | none => false

end ChronicleMeta.Text.Wildcard

namespace ChronicleMeta.Text

def matchesPattern (pattern name : String) : Bool :=
  Wildcard.accepts pattern.toList name.toList

end ChronicleMeta.Text
