import Timeslice.Time.Span

/-!
# Pieces of a query

A piece is the part of a query that one request asks the cluster for.
-/

namespace Timeslice

/-- A part of a query that stays inside one quantum. The residual is text, for it is sent to the
cluster. -/
structure Piece where
  projection : List String
  timeColumn : String
  span : Option Span
  residual : Option String
  deriving DecidableEq

namespace Piece

def boundClause (timeColumn : String) (s : Span) : String :=
  timeColumn ++ " >= " ++ Word.text s.start ++ " AND " ++ timeColumn ++ " < " ++ Word.text s.stop

def terms (p : Piece) : List String :=
  (p.span.map (boundClause p.timeColumn)).toList ++ (p.residual.map fun r => "(" ++ r ++ ")").toList

def whereClause (p : Piece) : Option String :=
  if p.terms.isEmpty then none else some (String.intercalate " AND " p.terms)

end Piece

end Timeslice
