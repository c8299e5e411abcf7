import Timeslice.Predicate.Printer
import Timeslice.Predicate.Token

/-!
# Faults of syntax

Why a text is no statement or no predicate. Positions are byte offsets into the text.
-/

namespace Timeslice

inductive Expectation where
  | selectKeyword
  | fromKeyword
  | tableName
  | columnNameOrStar
  | columnName
  | columnOrLiteral
  | comparator
  | literal
  | closeParen
  | endOfQuery
  deriving DecidableEq

def Expectation.text : Expectation → String
  | selectKeyword => "select"
  | fromKeyword => "from"
  | tableName => "table name"
  | columnNameOrStar => "column name or '*'"
  | columnName => "column name"
  | columnOrLiteral => "column name or literal"
  | comparator => "comparison operator"
  | literal => "literal"
  | closeParen => "')'"
  | endOfQuery => "end of query"

inductive Found where
  | token (t : Token)
  | column (name : String)
  | value (l : Literal)
  deriving DecidableEq

def Found.text : Found → String
  | token t => t.describe
  | column name => "column '" ++ name ++ "'"
  | value l => l.render

inductive SyntaxFault where
  | empty
  | unexpectedCharacter (character : Char) (position : Nat)
  | unterminatedQuote (position : Nat)
  | invalidNumber (text : String)
  | unexpectedToken (expected : Expectation) (found : Found)
  | unexpectedEnd (expected : Expectation)
  deriving DecidableEq

def SyntaxFault.message : SyntaxFault → String
  | empty => "query text is empty"
  | unexpectedCharacter character position =>
    "unexpected character '" ++ String.ofList [character] ++ "' at offset " ++
      Numeral.natText position
  | unterminatedQuote position =>
    "unterminated quote starting at offset " ++ Numeral.natText position
  | invalidNumber text => "invalid numeric literal '" ++ text ++ "'"
  | unexpectedToken expected found => "expected " ++ expected.text ++ ", found " ++ found.text
  | unexpectedEnd expected => "expected " ++ expected.text ++ ", found end of query"

end Timeslice
