import Timeslice.Proofs.Predicate.Grouping
import Timeslice.Proofs.Predicate.Names
import Timeslice.Proofs.Query.Residuals

/-!
# The clause of a piece

The conditions of a piece as one text: the bounds on the time column, and the residual in
parentheses. The clause is read back as what the piece asks for if the residual can be read and the
time column has a plain name. The name is not put in quotes where it needs them, so a clause with
another name for the time column does not bound it.
-/

namespace Timeslice

def Span.condition (s : Span) (column : String) : Predicate :=
  .and (.compare ⟨column, .greaterOrEqual, .integer s.start⟩)
    (.compare ⟨column, .less, .integer s.stop⟩)

namespace Quoted

theorem count_double (q : Char) (cs : List Char) : (double q cs).count q = 2 * cs.count q := by
  induction cs with
  | nil => rfl
  | cons c cs ih =>
    by_cases hc : c = q
    · subst hc
      simp [double, ih]
      omega
    · simp [double, hc, ih]

theorem count_enclose (q : Char) (cs : List Char) :
    (enclose q cs).count q = 2 * cs.count q + 2 := by
  simp [enclose, count_double]

end Quoted

namespace Predicate

variable {column : String}

/-- What the conditions of a span leave to the residual is all that follows them. -/
theorem addAll_condition (s : Span) (column : String) (terms : List Predicate) :
    Bounds.unbounded.addAll column ((s.condition column).conjuncts ++ terms) =
      Bounds.addAll column ⟨some s.start, some s.stop, none⟩ terms := by
  simp [Span.condition, conjuncts, Bounds.addAll, Bounds.add, Literal.millis?, Bounds.restrict,
    Bounds.raise, Bounds.cap, Bounds.unbounded]

theorem splitTime_condition (s : Span) (column : String) :
    (s.condition column).splitTime column = .ok ⟨some s, none⟩ := by
  have h := addAll_condition s column []
  rw [List.append_nil] at h
  rw [splitTime, h]
  rfl

theorem avoids_conjuncts {p : Predicate} (h : p.mentions column = false) :
    ∀ q ∈ p.conjuncts, q.mentions column = false := by
  rw [← mentions_conjuncts, List.any_eq_false] at h
  simpa using h

theorem splitTime_of_avoids {p : Predicate} (h : p.mentions column = false) :
    ∃ residual, p.splitTime column = .ok ⟨none, residual⟩ ∧
      ∀ columns row, Shelf.satisfies columns residual row = p.evaluate columns row := by
  refine ⟨_, ?_, fun columns row => satisfies_foldl_conjoin columns row p⟩
  rw [splitTime, Bounds.addAll_of_avoids (avoids_conjuncts h)]
  rfl

theorem splitTime_condition_and (s : Span) {p : Predicate} (h : p.mentions column = false) :
    ∃ residual, (and (s.condition column) p).splitTime column = .ok ⟨some s, residual⟩ ∧
      ∀ columns row, Shelf.satisfies columns residual row = p.evaluate columns row := by
  refine ⟨_, ?_, fun columns row => satisfies_foldl_conjoin columns row p⟩
  rw [splitTime, conjuncts, addAll_condition, Bounds.addAll_of_avoids (avoids_conjuncts h)]
  rfl

theorem mentions_regroup (column : String) (p : Predicate) :
    p.regroup.mentions column = p.mentions column := by
  rw [mentions, mentions, (leftForm_regroup p).shifts.columns_eq]

end Predicate

namespace Grammar

theorem Means.mem_of_mentions {t : Token} {c : Comparison} {column : String}
    (h : Means t (.column c.column)) (hmentions : (Predicate.compare c).mentions column = true) :
    t = .name column := by
  obtain rfl : column = c.column := by
    simpa [Predicate.mentions, Predicate.columns] using hmentions
  obtain ⟨column, comparator, literal⟩ := c
  cases h
  rfl

theorem Derives.mem_of_mentions {category : Category} {ts : List Token} {p : Predicate}
    (h : Derives category ts p) {column : String} (hmentions : p.mentions column = true) :
    Token.name column ∈ ts := by
  induction h with
  | columnFirst _ hcolumn _ =>
    rw [hcolumn.mem_of_mentions hmentions]
    exact List.mem_cons_self
  | valueFirst _ hcolumn _ =>
    rw [hcolumn.mem_of_mentions hmentions]
    simp
  | parentheses _ ih =>
    exact List.mem_cons_of_mem _ (List.mem_append_left _ (ih hmentions))
  | single _ ih | conjunction _ ih => exact ih hmentions
  | @and ts us word p q _ _ _ ihl ihr | @or ts us word p q _ _ _ ihl ihr =>
    have hside : p.mentions column = true ∨ q.mentions column = true := by
      simpa [Predicate.mentions, Predicate.columns] using hmentions
    rcases hside with hleft | hright
    · exact List.mem_append_left _ (ihl hleft)
    · exact List.mem_append_right _ (List.mem_cons_of_mem _ (ihr hright))

end Grammar

namespace Piece

/-- The text is read as a condition with the span of the piece, and with a residual that has the
value of the piece's residual on every row. -/
def ReadsBack (piece : Piece) (text : String) : Prop :=
  ∃ p split residual, Predicate.read text = .ok p ∧
    p.splitTime piece.timeColumn = .ok split ∧ split.span = piece.span ∧
    Shelf.readResidual piece.residual = .ok residual ∧ ∀ columns row,
      Shelf.satisfies columns split.residual row = Shelf.satisfies columns residual row

/-- The name of the time column is read as it stands in the clause, if it stands there. -/
def IsSpelled (piece : Piece) : Prop :=
  piece.span.isSome = true → Predicate.isPlainName piece.timeColumn.toList = true

structure Clauses (piece : Piece) (select : Select) : Prop where
  none_iff : piece.whereClause = none ↔ piece.span = none ∧ piece.residual = none
  reads : ∀ text, piece.whereClause = some text → piece.IsSpelled →
    (piece.residual.isSome = true → select.IsFinite) → piece.ReadsBack text
  /-- A decimal that is not finite makes the clause unreadable, like the residual. -/
  unread : ∀ text, piece.whereClause = some text → piece.IsSpelled →
    piece.residual.isSome = true → ¬select.IsFinite → ∀ p, Predicate.read text ≠ .ok p
  /-- Without its quotes the name of the time column is not read as that name. -/
  unbounded : ∀ text, piece.whereClause = some text → ¬piece.IsSpelled →
    (∀ residual ∈ piece.residual, '"' ∉ residual.toList) → ∀ p, Predicate.read text = .ok p →
      ∃ residual, p.splitTime piece.timeColumn = .ok ⟨none, residual⟩

structure TakenFrom (piece : Piece) (select : Select) (residual : Option Predicate) : Prop where
  text : piece.residual = residual.map Predicate.text
  readable : ∀ r ∈ residual, r.IsReadable
  avoids : ∀ r ∈ residual, r.mentions piece.timeColumn = false
  finite : ∀ r ∈ residual, r.IsFinite ↔ select.IsFinite
  column : piece.span.isSome = true →
    Operand.ofName piece.timeColumn = .column piece.timeColumn

theorem whereClause_eq_none_iff {piece : Piece} :
    piece.whereClause = none ↔ piece.span = none ∧ piece.residual = none := by
  obtain ⟨projection, timeColumn, span, residual⟩ := piece
  cases span <;> cases residual <;> simp [whereClause, terms]

/-- The bounds of the clause are printed as their condition if the name can stand without quotes. -/
theorem boundClause_eq {column : String} (h : Predicate.isPlainName column.toList = true)
    (s : Span) : boundClause column s = (s.condition column).text := by
  rw [← String.toList_inj]
  simp [boundClause, Predicate.text, Span.condition, Predicate.chars, Predicate.comparisonChars,
    Predicate.nameChars, h, Predicate.isOr, Comparator.text, Literal.chars, Word.text,
    Numeral.intText]

section Clauses

variable {projection : List String} {column : String} {s : Span} {r : Predicate}

theorem whereClause_residual (r : Predicate) :
    whereClause ⟨projection, column, none, some r.text⟩ =
      some (String.ofList (Predicate.parenthesized r.chars)) := by
  simp [whereClause, terms, ← String.toList_inj, Predicate.parenthesized, Predicate.text]

theorem whereClause_span (s : Span) :
    whereClause ⟨projection, column, some s, none⟩ = some (boundClause column s) := by
  simp [whereClause, terms]

theorem whereClause_both (s : Span) (r : Predicate) :
    whereClause ⟨projection, column, some s, some r.text⟩ =
      some (String.ofList ((boundClause column s).toList ++
        ' ' :: ("AND".toList ++ ' ' :: Predicate.parenthesized r.chars))) := by
  simp [whereClause, terms, ← String.toList_inj, Predicate.parenthesized, Predicate.text]

theorem isReadable_condition (h : Operand.ofName column = .column column) :
    (s.condition column).IsReadable :=
  ⟨h, h⟩

/-- The bounds of a clause are one conjunction, whatever follows them. -/
theorem derives_condition (h : Operand.ofName column = .column column) :
    Grammar.Derives .conjunction (s.condition column).tokens (s.condition column) := by
  have hcondition := (Grammar.derives_operands (isReadable_condition (s := s) h)).1 none [] rfl
  simpa [Span.condition, Predicate.isOr, Predicate.regroupAnd, Predicate.conjoin] using hcondition

theorem derives_enclosed (h : r.IsReadable) :
    Grammar.Derives .term (Predicate.enclosed r.tokens) r.regroup :=
  .parentheses (Grammar.derives_tokens h)

theorem isFinite_condition : (s.condition column).IsFinite :=
  ⟨trivial, trivial⟩

theorem read_residual (hread : r.IsReadable) (hfinite : r.IsFinite) :
    Predicate.read (String.ofList (Predicate.parenthesized r.chars)) = .ok r.regroup :=
  Predicate.read_of_lexes (Predicate.lexes hfinite).parenthesized
    (.conjunction (.single (derives_enclosed hread)))

theorem read_span (hplain : Predicate.isPlainName column.toList = true)
    (h : Operand.ofName column = .column column) :
    Predicate.read (boundClause column s) = .ok (s.condition column) := by
  rw [boundClause_eq hplain, Predicate.read_text (isReadable_condition h) isFinite_condition]
  rfl

theorem read_both (hplain : Predicate.isPlainName column.toList = true)
    (h : Operand.ofName column = .column column) (hread : r.IsReadable) (hfinite : r.IsFinite) :
    Predicate.read (String.ofList ((boundClause column s).toList ++
      ' ' :: ("AND".toList ++ ' ' :: Predicate.parenthesized r.chars))) =
        .ok (.and (s.condition column) r.regroup) := by
  have hand : Token.isKeyword "and" (.name "AND") = true := by decide
  have hword := @Predicate.lexes_keyword "AND" (by decide +kernel)
  rw [boundClause_eq hplain, Predicate.text, String.toList_ofList]
  exact Predicate.read_of_lexes ((Predicate.lexes isFinite_condition).append_space
    (hword.append_space (Predicate.lexes hfinite).parenthesized))
    (.conjunction (.and (derives_condition h) hand (derives_enclosed hread)))

end Clauses

variable {piece : Piece} {select : Select} {residual : Option Predicate} {text : String}

theorem TakenFrom.exists_read (h : piece.TakenFrom select residual)
    (htext : piece.whereClause = some text) (hspelled : piece.IsSpelled)
    (hfinite : ∀ r ∈ residual, r.IsFinite) :
    ∃ p split, Predicate.read text = .ok p ∧ p.splitTime piece.timeColumn = .ok split ∧
      split.span = piece.span ∧ ∀ columns row,
        Shelf.satisfies columns split.residual row = Shelf.satisfies columns residual row := by
  obtain ⟨projection, column, span, carried⟩ := piece
  obtain ⟨rfl, hread, havoids, -, hcolumn⟩ := h
  cases residual with
  | none =>
    cases span with
    | none => cases htext
    | some s =>
      cases (whereClause_span s).symm.trans htext
      exact ⟨_, _, read_span (hspelled rfl) (hcolumn rfl), Predicate.splitTime_condition s column,
        rfl, fun _ _ => rfl⟩
  | some r =>
    have hregroup : r.regroup.mentions column = false := by
      rw [Predicate.mentions_regroup]
      exact havoids r rfl
    have hsame := fun columns row => Predicate.evaluate_regroup columns row r
    cases span with
    | none =>
      cases (whereClause_residual r).symm.trans htext
      obtain ⟨left, hsplit, hleft⟩ := Predicate.splitTime_of_avoids hregroup
      exact ⟨_, _, read_residual (hread r rfl) (hfinite r rfl), hsplit, rfl,
        fun columns row => (hleft columns row).trans (hsame columns row)⟩
    | some s =>
      cases (whereClause_both s r).symm.trans htext
      obtain ⟨left, hsplit, hleft⟩ := Predicate.splitTime_condition_and s hregroup
      exact ⟨_, _, read_both (hspelled rfl) (hcolumn rfl) (hread r rfl) (hfinite r rfl), hsplit,
        rfl, fun columns row => (hleft columns row).trans (hsame columns row)⟩

theorem TakenFrom.readsBack (h : piece.TakenFrom select residual)
    (htext : piece.whereClause = some text) (hspelled : piece.IsSpelled)
    (hfinite : piece.residual.isSome = true → select.IsFinite) : piece.ReadsBack text := by
  have hdecimals : ∀ r ∈ residual, r.IsFinite := fun r hr =>
    (h.finite r hr).mpr (hfinite (by rw [h.text, hr]; rfl))
  obtain ⟨p, split, hp, hsplit, hspan, hvalue⟩ := h.exists_read htext hspelled hdecimals
  obtain ⟨read, hresidual, hsame⟩ :=
    Shelf.readResidual_text fun r hr => ⟨h.readable r hr, hdecimals r hr⟩
  rw [← h.text] at hresidual
  exact ⟨p, split, read, hp, hsplit, hspan, hresidual, fun columns row =>
    (hvalue columns row).trans (hsame columns row).symm⟩

theorem TakenFrom.read_ne_ok (h : piece.TakenFrom select residual)
    (htext : piece.whereClause = some text) (hspelled : piece.IsSpelled)
    (hresidual : piece.residual.isSome = true) (hinfinite : ¬select.IsFinite) (p : Predicate) :
    Predicate.read text ≠ .ok p := by
  obtain ⟨projection, column, span, carried⟩ := piece
  obtain ⟨rfl, hread, -, hdecimals, hcolumn⟩ := h
  obtain ⟨r, rfl⟩ : ∃ r, residual = some r := by
    simpa [Option.isSome_iff_exists] using hresidual
  have hrefuses := (Predicate.refuses_chars (hread r rfl)
    (mt (hdecimals r rfl).mp hinfinite)).parenthesized
  cases span with
  | none =>
    cases (whereClause_residual r).symm.trans htext
    exact Predicate.read_ne_ok_of_refuses hrefuses p
  | some s =>
    cases (whereClause_both s r).symm.trans htext
    have hpasses := Predicate.passes_chars (isReadable_condition (s := s) (hcolumn rfl))
      isFinite_condition
    rw [boundClause_eq (hspelled rfl), Predicate.text, String.toList_ofList]
    exact Predicate.read_ne_ok_of_refuses
      (hpasses.join_refuses PredicateParser.joins_and hrefuses) p

theorem quote_notMem_integer (i : Int) : '"' ∉ Numeral.integer i := by
  have hdigits : '"' ∉ Numeral.digits i.natAbs := fun h =>
    absurd (Numeral.isDigit_of_mem_digits h) (by decide)
  unfold Numeral.integer
  split_ifs
  · simpa using hdigits
  · exact hdigits

theorem count_boundClause (column : String) (s : Span) :
    (boundClause column s).toList.count '"' = 2 * column.toList.count '"' := by
  have hdigits := fun v : Int64 => List.count_eq_zero.mpr (quote_notMem_integer v.toInt)
  simp [boundClause, Word.text, Numeral.intText, hdigits]
  omega

/-- A clause has no quotes but those of the name and of the residual. -/
theorem count_whereClause (htext : piece.whereClause = some text) (hspan : piece.span.isSome = true)
    (hquotes : ∀ r ∈ piece.residual, '"' ∉ r.toList) :
    text.toList.count '"' = 2 * piece.timeColumn.toList.count '"' := by
  obtain ⟨projection, column, span, carried⟩ := piece
  obtain ⟨s, rfl⟩ := Option.isSome_iff_exists.mp hspan
  cases carried with
  | none =>
    cases (whereClause_span s).symm.trans htext
    exact count_boundClause column s
  | some r =>
    have hnone := List.count_eq_zero.mpr (hquotes r rfl)
    obtain rfl : boundClause column s ++ " AND " ++ ("(" ++ r ++ ")") = text := by
      simpa [whereClause, terms, String.append_assoc] using htext
    simp [count_boundClause, hnone]

theorem mentions_of_read (htext : piece.whereClause = some text) (hspelled : ¬piece.IsSpelled)
    (hquotes : ∀ r ∈ piece.residual, '"' ∉ r.toList) {p : Predicate}
    (hp : Predicate.read text = .ok p) : p.mentions piece.timeColumn = false := by
  obtain ⟨hspan, hplain⟩ := Classical.not_imp.mp hspelled
  by_contra hmentions
  obtain ⟨ts, hlex, hts⟩ := Except.exists_of_bind hp
  have hname := (Predicate.ofTokens_iff.mp hts).mem_of_mentions (by simpa using hmentions)
  rcases Lexer.name_of_read hlex hname with hbare | hquoted
  · exact hplain hbare
  · -- in quotes the name takes up two quotes more than it has in both places without them
    have hle := hquoted.sublist.count_le '"'
    rw [count_whereClause htext hspan hquotes, Quoted.count_enclose] at hle
    omega

end Piece

namespace Schema

variable {s : Schema} {settings : Settings} {select : Select} {plan : Plan} {piece : Piece}

theorem isSome_of_mem_spans {quantum : Quantum} {origin : Int64} {limit : UInt64}
    {bounds span : Option Span} {spans : List (Option Span)}
    (h : Schema.spans quantum origin limit bounds = .ok spans) (hspan : span ∈ spans)
    (hsome : span.isSome = true) : bounds.isSome = true := by
  rcases spans_spec h with ⟨rfl, rfl⟩ | ⟨s, -, -, rfl, -, -⟩
  · rw [List.mem_singleton.mp hspan] at hsome
    cases hsome
  · rfl

theorem exists_takenFrom {text : String} (hread : Statement.read text = .ok (.select select))
    (hplan : s.plan settings select = .ok plan) (hpiece : piece ∈ plan.pieces) :
    ∃ residual, piece.TakenFrom select residual := by
  obtain ⟨quantum, split, spans, hplanned⟩ := exists_planned hplan
  rw [hplanned.pieces] at hpiece
  obtain ⟨span, hspan, rfl⟩ := List.mem_map.mp hpiece
  have hbounds := isSome_of_mem_spans hplanned.cut hspan
  refine ⟨split.residual, ?_⟩
  rcases condition_spec hplanned.condition with ⟨-, rfl⟩ | ⟨p, hp, hsplit⟩
  · exact ⟨rfl, nofun, nofun, nofun, fun hsome => nomatch hbounds hsome⟩
  · have hreadable := (Statement.read_select hread).2 p hp
    constructor
    case text => rfl
    case readable => exact Predicate.all_residual_of_splitTime hsplit hreadable
    case avoids =>
      exact Predicate.mentions_eq_false_of_terms (Predicate.terms_of_splitTime hsplit)
    case finite =>
      intro r hr
      rw [Predicate.isFinite_residual_iff hsplit hr, Select.IsFinite, hp]
      simp
    case column =>
      intro hsome
      refine Predicate.ofName_of_mentions hreadable ?_
      rw [← Predicate.isSome_span_of_splitTime hsplit]
      exact hbounds hsome

/-- The clause of a planned piece is read back as the piece, if the name of the time column is plain
and the decimals are finite; with another name it sets no bounds. -/
theorem clauses_of_plan {text : String} (hread : Statement.read text = .ok (.select select))
    (hplan : s.plan settings select = .ok plan) (hpiece : piece ∈ plan.pieces) :
    piece.Clauses select := by
  obtain ⟨residual, htaken⟩ := exists_takenFrom hread hplan hpiece
  constructor
  case none_iff => exact Piece.whereClause_eq_none_iff
  case reads =>
    intro clause hclause hspelled hfinite
    exact htaken.readsBack hclause hspelled hfinite
  case unread =>
    intro clause hclause hspelled hresidual hinfinite p
    exact htaken.read_ne_ok hclause hspelled hresidual hinfinite p
  case unbounded =>
    intro clause hclause hspelled hquotes p hp
    have havoids := Piece.mentions_of_read hclause hspelled hquotes hp
    obtain ⟨left, hsplit, -⟩ := Predicate.splitTime_of_avoids havoids
    exact ⟨left, hsplit⟩

end Schema

namespace Loads

/-- The clause of the light loads bounds their time and keeps the residual. -/
theorem light_clauses :
    Piece.Clauses ⟨["time", "load"], "time", some ⟨0, 1000⟩, some "load < 2.5"⟩
      (light ⟨0x4004000000000000⟩) :=
  Schema.clauses_of_plan read_light plan_light List.mem_cons_self

/-- The loads with a time column whose name needs quotes. -/
def localSchema : Schema where
  name := "loads"
  columns := [
    ⟨⟨"host", .varchar, false⟩, some 1, some 1, none⟩,
    ⟨⟨"local time", .timestamp, false⟩, some 2, some 2, some ⟨1, .second⟩⟩,
    ⟨⟨"load", .sint64, true⟩, none, none, none⟩]

def localText : String :=
  "SELECT load FROM loads WHERE \"local time\" >= 0 AND \"local time\" < 1000"

def localSelect : Select where
  table := "loads"
  projection := .columns ["load"]
  predicate := some (.and (.compare ⟨"local time", .greaterOrEqual, .integer 0⟩)
    (.compare ⟨"local time", .less, .integer 1000⟩))

def localPiece : Piece :=
  ⟨["load"], "local time", some ⟨0, 1000⟩, none⟩

/-- A SELECT that is read and planned can have a piece whose clause is not read. -/
theorem local_clause_unread :
    localSchema.check = .ok () ∧
      Statement.read localText = .ok (.select localSelect) ∧
      localSchema.plan .standard localSelect =
        .ok ⟨"loads", [⟨"load", .sint64, true⟩], none, [localPiece]⟩ ∧
      localPiece.whereClause = some "local time >= 0 AND local time < 1000" ∧
      Predicate.read "local time >= 0 AND local time < 1000" =
        .error (.unexpectedToken .comparator (.token (.name "time"))) := by
  decide +kernel

end Loads

end Timeslice
