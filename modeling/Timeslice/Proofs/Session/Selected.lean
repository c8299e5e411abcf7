import Timeslice.Proofs.Session.Faithful

/-!
# The rows of a SELECT

A SELECT takes the rows of its replies as they are: it looks at how many cells they have, and at their
times where its plan has them. So its rows are as wide as its columns, but the types of their cells
are those that the transport gives them.
-/

namespace Timeslice

variable {σ τ : Type}

/-- The cell can stand under the column: it has the column's type, or is null where that is allowed. -/
def Column.Admits (column : Column) (cell : Cell) : Prop :=
  cell.type? = some column.type ∨ cell = .null ∧ column.nullable = true

namespace Plan

variable {plan : Plan} {parts : Nat → ResultSet} {row : Row}

theorem mem_merge (h : row ∈ (plan.merge ((List.range plan.pieces.length).map parts)).rows) :
    ∃ (i : Nat) (piece : Piece), plan.pieces[i]? = some piece ∧ row ∈ (parts i).rows ∧
      plan.keeps piece row = true := by
  rw [merge, ResultSet.ofRows] at h
  split_ifs at h with hempty
  · cases h
  · obtain ⟨⟨piece, part⟩, hzip, hrow⟩ := List.mem_flatMap.mp h
    obtain ⟨i, hi⟩ := List.mem_iff_getElem?.mp hzip
    obtain ⟨hpiece, hpart⟩ := List.getElem?_zip_eq_some.mp hi
    have hlt := (List.getElem?_eq_some_iff.mp hpiece).1
    rw [List.getElem?_map, List.getElem?_range hlt, Option.map_some, Option.some.injEq] at hpart
    obtain ⟨hmem, hkeeps⟩ := List.mem_filter.mp hrow
    exact ⟨i, piece, hpiece, hpart ▸ hmem, hkeeps⟩

theorem columns_merge (h : row ∈ (plan.merge ((List.range plan.pieces.length).map parts)).rows) :
    (plan.merge ((List.range plan.pieces.length).map parts)).columns = plan.columns := by
  rw [merge, ResultSet.ofRows] at h ⊢
  split_ifs at h ⊢
  · cases h
  · rfl

theorem exists_time_of_keeps {piece : Piece} {span : Span} {i : Nat} (h : plan.keeps piece row = true)
    (hspan : piece.span = some span) (hi : plan.timeIndex = some i) :
    ∃ t, row[i]? = some (.timestamp t) ∧ span.contains t = true := by
  simp only [keeps, hspan, hi] at h
  split at h
  · next t hcell => exact ⟨t, hcell, h⟩
  · cases h

end Plan

/-- The rows of a result come of the answers to the pieces of a plan. -/
structure ComesOf (log : Log) (table : String) (plan : Plan) (answers : List (Nat × Answer))
    (result : ResultSet) : Prop where
  columns : ∀ row ∈ result.rows, result.columns = plan.columns
  width : ∀ row ∈ result.rows, row.length = result.columns.length
  /-- Each row is a row of the answer to some piece. Where the piece has a span and the projection has
  the time, the row has a timestamp in that span. -/
  source : ∀ row ∈ result.rows, ∃ i part piece, plan.pieces[i]? = some piece ∧
    log.Brings table plan answers i part ∧ row ∈ part.rows ∧
      ∀ span index, piece.span = some span → plan.timeIndex = some index →
        ∃ t, row[index]? = some (.timestamp t) ∧ span.contains t = true
  admitted : (∀ n part, (n, .reply (.ok (.rows part))) ∈ answers → ∀ row ∈ part.rows,
      List.Forall₂ Column.Admits plan.columns row) →
    ∀ row ∈ result.rows, List.Forall₂ Column.Admits result.columns row

theorem comesOf_empty (log : Log) (table : String) (plan : Plan) (answers : List (Nat × Answer)) :
    ComesOf log table plan answers .empty :=
  ⟨by rintro row ⟨⟩, by rintro row ⟨⟩, by rintro row ⟨⟩, by rintro - row ⟨⟩⟩

theorem comesOf_merge {log : Log} {table : String} {plan : Plan} {answers : List (Nat × Answer)}
    {parts : Nat → ResultSet}
    (h : ∀ i < plan.pieces.length, log.Brings table plan answers i (parts i)) :
    ComesOf log table plan answers
      (plan.merge ((List.range plan.pieces.length).map parts)) := by
  have hsource {row : Row}
      (hrow : row ∈ (plan.merge ((List.range plan.pieces.length).map parts)).rows) :
      ∃ (i : Nat) (piece : Piece), plan.pieces[i]? = some piece ∧ row ∈ (parts i).rows ∧
        plan.keeps piece row = true ∧ log.Brings table plan answers i (parts i) := by
    obtain ⟨i, piece, hpiece, hmem, hkeeps⟩ := Plan.mem_merge hrow
    exact ⟨i, piece, hpiece, hmem, hkeeps, h i (List.getElem?_eq_some_iff.mp hpiece).1⟩
  refine ⟨fun row hrow => Plan.columns_merge hrow, fun row hrow => ?_, fun row hrow => ?_,
    fun hadmitted row hrow => ?_⟩
  · obtain ⟨i, piece, -, hmem, -, n, reply, -, -, hanswers⟩ := hsource hrow
    rw [Plan.columns_merge hrow]
    generalize parts i = part at hmem hanswers
    cases hanswers with
    | empty => cases hmem
    | rows fits => exact fits row hmem
  · obtain ⟨i, piece, hpiece, hmem, hkeeps, hbrings⟩ := hsource hrow
    exact ⟨i, parts i, piece, hpiece, hbrings, hmem,
      fun span index hspan hindex => Plan.exists_time_of_keeps hkeeps hspan hindex⟩
  · obtain ⟨i, piece, -, hmem, -, n, reply, hanswered, -, hanswers⟩ := hsource hrow
    rw [Plan.columns_merge hrow]
    generalize parts i = part at hmem hanswers
    cases hanswers with
    | empty => cases hmem
    | rows fits => exact hadmitted n _ hanswered row hmem

/-- What is known of the rows of a SELECT that stands like this. -/
structure SelectsRows (settings : Settings) (c : Command) (select : Select) (log own : Log)
    (standing : Standing) : Prop where
  resolved : ∀ result, standing = .resolved (.rows result) →
    ∃ schema plan n rest, own.answers = (n, .reply (.ok (.table schema))) :: rest ∧
      schema.plan settings select = .ok plan ∧ ComesOf log c.table plan own.answers result
  misfit : ∀ schema plan n rest n' result, c.Plans settings schema plan →
    own.answers = (n, .reply (.ok (.table schema))) :: rest →
    (n', .reply (.ok (.rows result))) ∈ own.answers →
    (∃ row ∈ result.rows, row.length ≠ plan.columns.length) →
      standing = .cancelled ∨ ∃ before row after, result.rows = before ++ row :: after ∧
        (∀ r ∈ before, r.length = plan.columns.length) ∧ row.length ≠ plan.columns.length ∧
        standing = .failed
          ⟨c.table, c.kind, .invalidData (.arityMismatch .row plan.columns.length row.length)⟩

theorem ComesOf.mono {log log' : Log} {table : String} {plan : Plan}
    {answers : List (Nat × Answer)} {result : ResultSet}
    (h : ComesOf log table plan answers result) (hlog : log <+: log') :
    ComesOf log' table plan answers result := by
  refine ⟨h.columns, h.width, fun row hrow => ?_, h.admitted⟩
  obtain ⟨i, part, piece, hpiece, hbrings, hmem, htimed⟩ := h.source row hrow
  exact ⟨i, part, piece, hpiece, hbrings.mono hlog, hmem, htimed⟩

namespace Turn.Course

variable {settings : Settings} {c : Command} {requests : List Request}
  {answers : List (Nat × Answer)} {t : Turn (σ × Log) (Nat × τ)} {text : String} {select : Select}
  {result : ResultSet}

theorem comesOf (h : t.Course settings c requests answers) (hselect : c = .query text (.select select))
    (houtcome : t.outcome = some (.ok (.rows result))) :
    ∃ schema plan n rest, answers = (n, .reply (.ok (.table schema))) :: rest ∧
      schema.plan settings select = .ok plan ∧ ComesOf t.state.2 c.table plan answers result := by
  subst hselect
  cases h.delivers houtcome with
  | @ended n a _ ends _ _ answers_eq =>
    cases ends with
    | yields carries => cases carries
    | @nothing schema _ plan _ planned =>
      exact ⟨schema, plan, n, [], answers_eq, planned, comesOf_empty _ _ _ _⟩
  | @resolved schema plan m heard plans _ _ tells =>
    obtain ⟨n, rest, hanswers, -⟩ := tells.answers
    obtain ⟨parts, hresult, hbrings⟩ := h.merges plans hanswers houtcome
    obtain ⟨text', select', hsame, hplan⟩ := plans.planned
    cases hsame
    rw [Response.rows.inj hresult]
    exact ⟨schema, plan, n, rest, hanswers, hplan, comesOf_merge hbrings⟩

theorem outcome_of_misfit (h : t.Course settings c requests answers) {schema : Schema} {plan : Plan}
    {n n' : Nat} {rest : List (Nat × Answer)} (hplans : c.Plans settings schema plan)
    (hfirst : answers = (n, .reply (.ok (.table schema))) :: rest)
    (ha : (n', .reply (.ok (.rows result))) ∈ answers)
    (hmisfit : ∃ row ∈ result.rows, row.length ≠ plan.columns.length) :
    ∃ before row after, result.rows = before ++ row :: after ∧
      (∀ r ∈ before, r.length = plan.columns.length) ∧ row.length ≠ plan.columns.length ∧
      t.outcome =
        some (.error (.invalidData (.arityMismatch .row plan.columns.length row.length))) := by
  cases h.regards ha with
  | ended _ _ _ answers_eq =>
    rw [answers_eq] at hfirst
    cases hfirst
  | gathered plans _ tells answers_eq mem =>
    cases tells.answer_eq (answers_eq.symm.trans hfirst)
    obtain rfl := hplans.unique plans
    obtain ⟨first, others, rfl, -, hrest⟩ := tells.answers
    rcases List.mem_cons.mp mem with hmem | hmem
    · cases hmem
    · obtain ⟨p, -, ⟨reply, hreply, hpart⟩, -⟩ := exists_mem_of_forall₂ hrest.flip hmem
      cases hreply
      cases Fanout.part_eq_ok_iff.mp hpart with
      | rows fits =>
        obtain ⟨row, hrow, hwidth⟩ := hmisfit
        exact absurd (fits row hrow) hwidth
  | failed plans tells _ _ answers_eq fails outcome =>
    cases tells.answer_eq (answers_eq.symm.trans hfirst)
    obtain rfl := hplans.unique plans
    cases Fanout.part_eq_error_iff.mp fails with
    | misfit rows fits length => exact ⟨_, _, _, rows, fits, length, outcome⟩

end Turn.Course

theorem Submission.Stands.selectsRows {settings : Settings} {log own : Log} {state : σ}
    {sub : Submission (Nat × τ)} {text : String} {select : Select}
    (h : sub.Stands settings own.requests own.answers (state, log))
    (hselect : sub.command = .query text (.select select)) :
    SelectsRows settings sub.command select log own sub.standing := by
  obtain ⟨t, hlog, hcourse, hverdict, hresolved, -⟩ := h.exists_verdict
  refine ⟨fun result hsub => ?_, fun schema plan n rest n' result hplans hfirst ha hmisfit => ?_⟩
  · obtain ⟨schema, plan, n, rest, hanswers, hplan, hcomes⟩ :=
      hcourse.comesOf hselect (hresolved _ hsub)
    exact ⟨schema, plan, n, rest, hanswers, hplan, hcomes.mono hlog⟩
  · obtain ⟨before, row, after, hrows, hfits, hwidth, houtcome⟩ :=
      hcourse.outcome_of_misfit hplans hfirst ha hmisfit
    exact (hverdict _ houtcome).imp_right fun hsub => ⟨before, row, after, hrows, hfits, hwidth, hsub⟩

namespace World

variable {settings : Settings} {state : σ} {acts : List (Act σ)} {ticket : Nat}
  {sub : Submission (Nat × τ)} {text : String} {select : Select}

/-- In every run over any transport the rows of a SELECT are rows of its replies and as wide as its
columns, and a reply with a row of another width fails it. -/
theorem rows_of_select (T : Transport σ τ)
    (hsub : ((start settings (state, [])).record T acts).submissions[ticket]? = some sub)
    (hselect : sub.command = .query text (.select select)) :
    SelectsRows settings sub.command select ((start settings (state, [])).record T acts).state.2
      ((start settings (state, [])).own T ticket acts) sub.standing := by
  have hstands := (standsBy_record T settings state ticket acts).stands sub hsub
  rw [settings_record] at hstands
  exact hstands.selectsRows hselect

end World

namespace Loads

/-- A transport that describes the table of loads and gives this answer to every piece that starts
the epoch, or has no span. -/
def describing (start : Option Int64) (answer : Answer) : Script where
  rules := [(⟨some .describeTable, none, none⟩, ⟨0, .reply (.ok (.table schema))⟩),
    (⟨some .query, none, start⟩, ⟨0, answer⟩)]
  served := []

def selecting (c : Command) (s : Script) : World (Script × Log) (Nat × Answer) :=
  (World.start settings (s, [])).record Script.transport [.submit c true, .turn 0 0]

end Loads

/-- A SELECT of two pieces resolves with the rows of the one answer that has any. -/
theorem loads_rows_come_of_replies :
    ∃ sub, (Loads.selecting Loads.query
        (Loads.describing (some 0) (.reply (Loads.reply 0)))).submissions[0]? = some sub ∧
      sub.standing = .resolved (.rows (Loads.part 0)) ∧
      SelectsRows Loads.settings sub.command Loads.select
        (Loads.selecting Loads.query (Loads.describing (some 0) (.reply (Loads.reply 0)))).state.2
        ((World.start Loads.settings (Loads.describing (some 0) (.reply (Loads.reply 0)), [])).own
          Script.transport 0 [.submit Loads.query true, .turn 0 0]) sub.standing := by
  obtain ⟨sub, hsub⟩ : ∃ sub, (Loads.selecting Loads.query
      (Loads.describing (some 0) (.reply (Loads.reply 0)))).submissions[0]? = some sub :=
    Option.isSome_iff_exists.mp (by decide +kernel)
  have hcommand : ((Loads.selecting Loads.query
      (Loads.describing (some 0) (.reply (Loads.reply 0)))).submissions[0]?).map (·.command) =
        some Loads.query := by decide +kernel
  have hstanding : ((Loads.selecting Loads.query
      (Loads.describing (some 0) (.reply (Loads.reply 0)))).submissions[0]?).map (·.standing) =
        some (.resolved (.rows (Loads.part 0))) := by decide +kernel
  rw [hsub, Option.map_some, Option.some.injEq] at hcommand hstanding
  exact ⟨sub, hsub, hstanding, World.rows_of_select Script.transport hsub hcommand⟩

/-- A SELECT of numbers resolves with a text if that is what the transport replies. -/
theorem loads_resolve_with_text :
    (Loads.selecting (.query "SELECT load FROM loads" (.select ⟨"loads", .columns ["load"], none⟩))
        (Loads.describing none (.reply (.ok (.rows ⟨[], [[.ofText "x"]]⟩))))).standing 0 =
      .resolved (.rows ⟨[⟨"load", .sint64, true⟩], [[.ofText "x"]]⟩) ∧
    ¬ List.Forall₂ Column.Admits [⟨"load", .sint64, true⟩] [.ofText "x"] := by
  refine ⟨by decide +kernel, fun h => ?_⟩
  rcases List.forall₂_cons.mp h with ⟨htype | ⟨hnull, -⟩, -⟩
  · cases htype
  · cases hnull

end Timeslice
