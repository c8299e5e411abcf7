import Timeslice.Number.Shortest
import Timeslice.Number.Word
import Timeslice.Predicate.Basic
import Timeslice.Text.Class
import Timeslice.Text.Quoted

/-!
# The text of predicates

Names that would not be read back as they stand are put between double quotes, texts between single
quotes. A term of AND that is itself an OR is put in parentheses; no other term needs them.
-/

namespace Timeslice

namespace Literal

def truthText : Bool → String
  | true => "true"
  | false => "false"

def chars : Literal → List Char
  | text s => Quoted.enclose '\'' s.toList
  | integer v => Numeral.integer v.toInt
  | decimal v => v.literalChars
  | truth b => (truthText b).toList

def render (l : Literal) : String :=
  String.ofList l.chars

end Literal

namespace Predicate

/-- Whether a name can stand without quotes. -/
def isPlainName : List Char → Bool
  | [] => false
  | c :: rest => Text.startsName c && rest.all Text.continuesName

def nameChars (name : String) : List Char :=
  if isPlainName name.toList then name.toList else Quoted.enclose '"' name.toList

def comparisonChars (c : Comparison) : List Char :=
  nameChars c.column ++ ' ' :: (c.comparator.text.toList ++ ' ' :: c.literal.chars)

def isOr : Predicate → Bool
  | or _ _ => true
  | _ => false

def parenthesized (cs : List Char) : List Char :=
  '(' :: (cs ++ [')'])

def chars : Predicate → List Char
  | compare c => comparisonChars c
  | or left right => left.chars ++ " OR ".toList ++ right.chars
  | and left right =>
    (if left.isOr then parenthesized left.chars else left.chars) ++ " AND ".toList ++
      if right.isOr then parenthesized right.chars else right.chars

def text (p : Predicate) : String :=
  String.ofList p.chars

end Predicate

end Timeslice
