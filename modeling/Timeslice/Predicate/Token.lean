import Timeslice.Number.Shortest
import Timeslice.Number.Word
import Timeslice.Predicate.Basic
import Timeslice.Text.Class

/-!
# Tokens

The words of the query language. A name in double quotes is the same token as a bare one, and a
keyword is a name with the right letters in any case.
-/

namespace Timeslice

inductive Token where
  | name (s : String)
  | text (s : String)
  | integer (v : Int64)
  | decimal (v : Double)
  | comparator (c : Comparator)
  | openParen
  | closeParen
  | comma
  | star
  deriving DecidableEq

namespace Token

def isKeyword (keyword : String) : Token → Bool
  | name s => Text.sameWord s keyword
  | _ => false

def describe : Token → String
  | name s => "'" ++ s ++ "'"
  | text s => "string '" ++ s ++ "'"
  | integer v => Word.text v
  | decimal v => v.text
  | comparator c => "'" ++ c.text ++ "'"
  | openParen => "'('"
  | closeParen => "')'"
  | comma => "','"
  | star => "'*'"

end Token

end Timeslice
