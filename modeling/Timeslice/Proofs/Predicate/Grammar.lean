import Mathlib.Tactic.Common
import Timeslice.Proofs.Results
import Timeslice.Query.Statement

/-!
# The grammar of predicates and statements

A predicate is derived from its tokens by the rules of a grammar in which AND binds tighter than OR
and both join to the left. The parser is sound and complete for the grammar: what it has read up to
some token is spelled by the tokens before it, and it takes the tokens of a derivation as that
derivation has them.
-/

namespace Timeslice

theorem Text.sameWord_eq_false {s a b : String} (h : sameWord s a = true)
    (hne : sameWord a b = false) : sameWord s b = false := by
  rw [sameWord, beq_iff_eq.mp h]
  exact hne

theorem Token.isKeyword_eq_false {word : Token} {a b : String} (h : word.isKeyword a = true)
    (hne : Text.sameWord a b = false) : word.isKeyword b = false := by
  cases word with
  | name s => exact Text.sameWord_eq_false h hne
  | _ => cases h

/-- With its sides exchanged, the first comparator holds where the second one does. -/
def Comparator.Mirrors (c d : Comparator) : Prop :=
  ∀ o : Ordering, c.holds o.swap = d.holds o

theorem Comparator.mirrors_flip (c : Comparator) : c.Mirrors c.flip :=
  fun o => (c.holds_flip o).symm

theorem Comparator.eq_flip_of_mirrors {c d : Comparator} (h : c.Mirrors d) : d = c.flip := by
  have hlt := h .lt
  have heq := h .eq
  have hgt := h .gt
  revert hlt heq hgt
  cases c <;> cases d <;> decide

namespace Grammar

/-- The token stands for the operand. The names of the truths are no columns. -/
inductive Means : Token → Operand → Prop where
  | column {s : String} : Text.sameWord s "true" = false → Text.sameWord s "false" = false →
      Means (.name s) (.column s)
  | truth {s : String} (b : Bool) : Text.sameWord s (Literal.truthText b) = true →
      Means (.name s) (.value (.truth b))
  | text (s : String) : Means (.text s) (.value (.text s))
  | integer (v : Int64) : Means (.integer v) (.value (.integer v))
  | decimal (v : Double) : Means (.decimal v) (.value (.decimal v))

inductive Category where
  | disjunction
  | conjunction
  | term

/-- The tokens make up a predicate of the category. -/
inductive Derives : Category → List Token → Predicate → Prop where
  | columnFirst {t u : Token} {column : String} {l : Literal} (c : Comparator) :
      Means t (.column column) → Means u (.value l) →
      Derives .term [t, .comparator c, u] (.compare ⟨column, c, l⟩)
  | valueFirst {t u : Token} {column : String} {l : Literal} {c d : Comparator} :
      Means t (.value l) → Means u (.column column) → c.Mirrors d →
      Derives .term [t, .comparator c, u] (.compare ⟨column, d, l⟩)
  | parentheses {ts : List Token} {p : Predicate} : Derives .disjunction ts p →
      Derives .term (.openParen :: (ts ++ [.closeParen])) p
  | single {ts : List Token} {p : Predicate} : Derives .term ts p → Derives .conjunction ts p
  | and {ts us : List Token} {word : Token} {p q : Predicate} : Derives .conjunction ts p →
      word.isKeyword "and" = true → Derives .term us q →
      Derives .conjunction (ts ++ word :: us) (.and p q)
  | conjunction {ts : List Token} {p : Predicate} : Derives .conjunction ts p →
      Derives .disjunction ts p
  | or {ts us : List Token} {word : Token} {p q : Predicate} : Derives .disjunction ts p →
      word.isKeyword "or" = true → Derives .conjunction us q →
      Derives .disjunction (ts ++ word :: us) (.or p q)

inductive Names : List Token → List String → Prop where
  | single (s : String) : Names [.name s] [s]
  | more (s : String) {ts : List Token} {names : List String} : Names ts names →
      Names (.name s :: .comma :: ts) (s :: names)

inductive Projects : List Token → Projection → Prop where
  | all : Projects [.star] .all
  | columns {ts : List Token} {names : List String} : Names ts names →
      Projects ts (.columns names)

inductive Filters : List Token → Option Predicate → Prop where
  | none : Filters [] none
  | some {word : Token} {ts : List Token} {p : Predicate} : word.isKeyword "where" = true →
      Derives .disjunction ts p → Filters (word :: ts) (some p)

inductive States : List Token → Statement → Prop where
  | select {word word' : Token} {ps ws : List Token} {projection : Projection} {table : String}
      {predicate : Option Predicate} : word.isKeyword "select" = true → Projects ps projection →
      word'.isKeyword "from" = true → Filters ws predicate →
      States (word :: (ps ++ word' :: .name table :: ws)) (.select ⟨table, projection, predicate⟩)
  | describe {word : Token} {table : String} : word.isKeyword "describe" = true →
      States [word, .name table] (.describe table)

theorem means_iff {t : Token} {o : Operand} : Means t o ↔ Operand.ofToken? t = some o := by
  constructor
  · rintro (⟨htrue, hfalse⟩ | @⟨s, b, hsame⟩ | _ | _ | _)
    · simp [Operand.ofToken?, Operand.ofName, htrue, hfalse]
    · cases b with
      | true =>
        have htrue : Text.sameWord s "true" = true := hsame
        simp [Operand.ofToken?, Operand.ofName, htrue]
      | false =>
        have hfalse : Text.sameWord s "false" = true := hsame
        have htrue := Text.sameWord_eq_false hfalse (b := "true") (by decide)
        simp [Operand.ofToken?, Operand.ofName, htrue, hfalse]
    all_goals rfl
  · intro h
    cases t with
    | name s =>
      obtain rfl : Operand.ofName s = o := Option.some.inj h
      unfold Operand.ofName
      split_ifs with htrue hfalse
      · exact .truth true htrue
      · exact .truth false hfalse
      · exact .column (by simpa using htrue) (by simpa using hfalse)
    | text s => cases h; exact .text s
    | integer v => cases h; exact .integer v
    | decimal v => cases h; exact .decimal v
    | _ => cases h

theorem derives_compare {t u : Token} {left right : Operand} {c : Comparator} {d : Comparison}
    (hleft : Means t left) (hright : Means u right) (h : left.compare c right = .ok d) :
    Derives .term [t, .comparator c, u] (.compare d) := by
  cases left <;> cases right <;> cases h
  · exact .columnFirst c hleft hright
  · exact .valueFirst hleft hright c.mirrors_flip

/-- What stands in front of an operand of the connective: nothing, or what the operand is joined
to. -/
def Leads (category : Category) (keyword : String) : Option Predicate → List Token → Prop
  | none, ts => ts = []
  | some p, ts => ∃ us word, ts = us ++ [word] ∧ word.isKeyword keyword = true ∧
      Derives category us p

theorem Derives.leads {category : Category} {keyword : String} {ts : List Token} {word : Token}
    {p : Predicate} (h : Derives category ts p) (hword : word.isKeyword keyword = true) :
    Leads category keyword (some p) (ts ++ [word]) :=
  ⟨ts, word, rfl, hword, h⟩

theorem Leads.conjoin {before : Option Predicate} {ts us : List Token} {p : Predicate}
    (h : Leads .conjunction "and" before ts) (hp : Derives .term us p) :
    Derives .conjunction (ts ++ us) (.conjoin before p) := by
  cases before with
  | none =>
    rw [show ts = [] from h]
    exact .single hp
  | some b =>
    obtain ⟨vs, word, rfl, hword, hb⟩ := h
    rw [List.append_assoc, List.singleton_append]
    exact .and hb hword hp

theorem Leads.disjoin {before : Option Predicate} {ts us : List Token} {p : Predicate}
    (h : Leads .disjunction "or" before ts) (hp : Derives .conjunction us p) :
    Derives .disjunction (ts ++ us) (.disjoin before p) := by
  cases before with
  | none =>
    rw [show ts = [] from h]
    exact .conjunction hp
  | some b =>
    obtain ⟨vs, word, rfl, hword, hb⟩ := h
    rw [List.append_assoc, List.singleton_append]
    exact .or hb hword hp

end Grammar

namespace PredicateParser

open Grammar

def Level.SpelledBy (level : Level) (ts : List Token) : Prop :=
  ∃ us vs, ts = us ++ vs ∧ Leads .disjunction "or" level.disjuncts us ∧
    Leads .conjunction "and" level.conjuncts vs

def Stage.SpelledBy : Stage → List Token → Prop
  | term level, ts => level.SpelledBy ts
  | comparator level left, ts => ∃ us t, ts = us ++ [t] ∧ level.SpelledBy us ∧ Means t left
  | operand level left c, ts =>
    ∃ us t, ts = us ++ [t, .comparator c] ∧ level.SpelledBy us ∧ Means t left
  | joint disjuncts current, ts => ∃ us vs, ts = us ++ vs ∧
      Leads .disjunction "or" disjuncts us ∧ Derives .conjunction vs current

def spells : List Level → Stage → List Token → Prop
  | [], stage, ts => stage.SpelledBy ts
  | level :: outer, stage, ts => ∃ us vs, ts = us ++ .openParen :: vs ∧
      spells outer (.term level) us ∧ stage.SpelledBy vs

def State.SpelledBy (state : State) (ts : List Token) : Prop :=
  spells state.outer state.stage ts

theorem Level.spelledBy_start : Level.start.SpelledBy [] :=
  ⟨[], [], rfl, rfl, rfl⟩

theorem State.spelledBy_start : State.start.SpelledBy [] :=
  Level.spelledBy_start

theorem Level.SpelledBy.close {level : Level} {us vs : List Token} {p : Predicate}
    (h : level.SpelledBy us) (hp : Derives .term vs p) : (level.close p).SpelledBy (us ++ vs) := by
  obtain ⟨ds, cs, rfl, hds, hcs⟩ := h
  exact ⟨ds, cs ++ vs, List.append_assoc _ _ _, hds, hcs.conjoin hp⟩

theorem spells_append {outer : List Level} {stage next : Stage} {ts us : List Token}
    (h : spells outer stage ts)
    (hnext : ∀ vs, stage.SpelledBy vs → next.SpelledBy (vs ++ us)) :
    spells outer next (ts ++ us) := by
  cases outer with
  | nil => exact hnext ts h
  | cons level outer =>
    obtain ⟨before, inner, rfl, houter, hinner⟩ := h
    exact ⟨before, inner ++ us, by simp, houter, hnext inner hinner⟩

/-- A token takes the parser to a state that is spelled by one token more. -/
theorem spelledBy_step {state next : State} {ts : List Token} {t : Token}
    (hstate : state.SpelledBy ts) (h : step state t = .ok next) :
    next.SpelledBy (ts ++ [t]) := by
  obtain ⟨outer, stage⟩ := state
  cases stage with
  | term level =>
    simp only [step] at h
    split_ifs at h with hopen
    · cases h
      subst hopen
      exact ⟨ts, [], rfl, hstate, Level.spelledBy_start⟩
    · split at h
      · next left hleft =>
        cases h
        exact spells_append hstate fun vs hvs => ⟨vs, t, rfl, hvs, means_iff.mpr hleft⟩
      · cases h
  | comparator level left =>
    cases t with
    | comparator c =>
      cases h
      refine spells_append hstate ?_
      rintro _ ⟨us, t, rfl, hus, hleft⟩
      exact ⟨us, t, by simp, hus, hleft⟩
    | _ => cases h
  | operand level left c =>
    simp only [step] at h
    split at h
    · next right hright =>
      obtain ⟨d, hd, heq⟩ := Except.exists_of_map h
      cases heq
      refine spells_append hstate ?_
      rintro _ ⟨us, t, rfl, hus, hleft⟩
      have hterm := derives_compare hleft (means_iff.mpr hright) hd
      simpa using hus.close hterm
    · cases h
  | joint disjuncts current =>
    simp only [step] at h
    split_ifs at h with hand hor
    · cases h
      refine spells_append hstate ?_
      rintro _ ⟨ds, cs, rfl, hds, hcs⟩
      exact ⟨ds, cs ++ [t], by simp, hds, hcs.leads hand⟩
    · cases h
      refine spells_append hstate ?_
      rintro _ ⟨ds, cs, rfl, hds, hcs⟩
      exact ⟨ds ++ cs ++ [t], [], by simp, (hds.disjoin hcs).leads hor, rfl⟩
    · split at h
      · next level outer =>
        cases h
        obtain ⟨us, _, rfl, houter, ds, cs, rfl, hds, hcs⟩ := hstate
        have hterm := Derives.parentheses (hds.disjoin hcs)
        rw [List.append_assoc]
        exact spells_append houter fun vs hvs => by simpa using hvs.close hterm
      · cases h

/-- Tokens that are read to their end make up the predicate that is read. -/
theorem derives_of_run {state : State} {ts us : List Token} {p : Predicate}
    (hstate : state.SpelledBy ts) (h : run state us = .ok p) :
    Derives .disjunction (ts ++ us) p := by
  induction us generalizing state ts with
  | nil =>
    obtain ⟨outer, stage⟩ := state
    cases stage with
    | joint disjuncts current =>
      cases outer with
      | nil =>
        cases h
        obtain ⟨ds, cs, rfl, hds, hcs⟩ := hstate
        rw [List.append_nil]
        exact hds.disjoin hcs
      | cons level outer => cases h
    | _ => cases h
  | cons t us ih =>
    rw [run] at h
    split at h
    · next next hnext =>
      have hread := ih (spelledBy_step hstate hnext) h
      rwa [List.append_assoc, List.singleton_append] at hread
    · cases h

variable {outer : List Level} {level : Level} {ts rest : List Token}

theorem run_open :
    run ⟨outer, .term level⟩ (.openParen :: ts) = run ⟨level :: outer, .term .start⟩ ts := by
  simp [run, step]

theorem run_close (d : Option Predicate) (cur : Predicate) :
    run ⟨level :: outer, .joint d cur⟩ (.closeParen :: ts) =
      run ⟨outer, level.close (.disjoin d cur)⟩ ts := rfl

theorem run_and {word : Token} (h : word.isKeyword "and" = true) (d : Option Predicate)
    (cur : Predicate) :
    run ⟨outer, .joint d cur⟩ (word :: ts) = run ⟨outer, .term ⟨d, some cur⟩⟩ ts := by
  simp [run, step, h]

theorem run_or {word : Token} (h : word.isKeyword "or" = true) (d : Option Predicate)
    (cur : Predicate) :
    run ⟨outer, .joint d cur⟩ (word :: ts) =
      run ⟨outer, .term ⟨some (.disjoin d cur), none⟩⟩ ts := by
  simp [run, step, h, Token.isKeyword_eq_false h (b := "and") (by decide)]

theorem run_operands {t u : Token} {left right : Operand} {c : Comparator} {d : Comparison}
    (hleft : Means t left) (hright : Means u right) (h : left.compare c right = .ok d) :
    run ⟨outer, .term level⟩ (t :: .comparator c :: u :: rest) =
      run ⟨outer, level.close (.compare d)⟩ rest := by
  have hopen : t ≠ .openParen := by
    rintro rfl
    cases hleft
  simp only [run, step, if_neg hopen, means_iff.mp hleft, means_iff.mp hright, h, Except.map]

/-- How the parser takes the tokens of a derivation, wherever they stand. -/
def Takes : Category → List Token → Predicate → Prop
  | .term, ts, p => ∀ outer level rest,
      run ⟨outer, .term level⟩ (ts ++ rest) = run ⟨outer, level.close p⟩ rest
  | .conjunction, ts, p => ∀ outer d rest,
      run ⟨outer, .term ⟨d, none⟩⟩ (ts ++ rest) = run ⟨outer, .joint d p⟩ rest
  | .disjunction, ts, p => ∀ outer rest, ∃ d cur, Predicate.disjoin d cur = p ∧
      run ⟨outer, .term .start⟩ (ts ++ rest) = run ⟨outer, .joint d cur⟩ rest

/-- The parser takes the tokens of a predicate as they are derived. -/
theorem takes_of_derives {category : Category} {ts : List Token} {p : Predicate}
    (h : Derives category ts p) : Takes category ts p := by
  induction h with
  | columnFirst c hcolumn hvalue =>
    intro outer level rest
    exact run_operands hcolumn hvalue rfl
  | valueFirst hvalue hcolumn hmirrors =>
    intro outer level rest
    rw [Comparator.eq_flip_of_mirrors hmirrors]
    exact run_operands hvalue hcolumn rfl
  | @parentheses ts p _ ih =>
    intro outer level rest
    obtain ⟨d, cur, heq, hrun⟩ := ih (level :: outer) (.closeParen :: rest)
    rw [List.cons_append, List.append_assoc, List.singleton_append, run_open, hrun, run_close, heq]
  | single _ ih => exact fun outer d rest => ih outer ⟨d, none⟩ rest
  | and _ hword _ ihl ihr =>
    intro outer d rest
    rw [List.append_assoc, List.cons_append, ihl, run_and hword, ihr]
    rfl
  | @conjunction ts p _ ih => exact fun outer rest => ⟨none, p, rfl, ih outer none rest⟩
  | @or ts us word p q _ hword _ ihl ihr =>
    intro outer rest
    obtain ⟨d, cur, heq, hrun⟩ := ihl outer (word :: (us ++ rest))
    refine ⟨some p, q, rfl, ?_⟩
    rw [List.append_assoc, List.cons_append, hrun, run_or hword, heq, ihr]

end PredicateParser

namespace Predicate

/-- A predicate is read from its tokens exactly if the grammar derives it from them. -/
theorem ofTokens_iff {ts : List Token} {p : Predicate} :
    ofTokens ts = .ok p ↔ Grammar.Derives .disjunction ts p := by
  constructor
  · exact PredicateParser.derives_of_run PredicateParser.State.spelledBy_start
  · intro h
    obtain ⟨d, cur, heq, hrun⟩ := PredicateParser.takes_of_derives h [] []
    rw [List.append_nil] at hrun
    rw [ofTokens, PredicateParser.State.start, hrun, ← heq]
    rfl

end Predicate

namespace Statement

open Grammar

theorem name_eq_ok {expected : Expectation} {ts : List Token} {r : String × List Token}
    (h : name expected ts = .ok r) : ts = .name r.1 :: r.2 := by
  unfold name at h
  split at h
  · cases h
  · cases h
    rfl
  · cases h

theorem keyword_eq_ok {expected : Expectation} {ts : List Token} {r : Unit × List Token}
    (h : keyword expected ts = .ok r) :
    ∃ word, word.isKeyword expected.text = true ∧ ts = word :: r.2 := by
  unfold keyword at h
  split at h
  · cases h
  · next word rest =>
    split_ifs at h with hword
    cases h
    exact ⟨word, hword, rfl⟩

theorem keyword_of_isKeyword (expected : Expectation) {word : Token} (ts : List Token)
    (h : word.isKeyword expected.text = true) : keyword expected (word :: ts) = .ok ((), ts) := by
  rw [keyword, if_pos h]

theorem names_of_moreNames {ts : List Token} {r : List String × List Token}
    (h : moreNames ts = .ok r) :
    ∃ us, ts = us ++ r.2 ∧ ∀ s, Names (.name s :: us) (s :: r.1) := by
  induction ts using moreNames.induct generalizing r with
  | case1 s rest ih =>
    rw [moreNames] at h
    obtain ⟨more, hmore, rfl⟩ := Except.exists_of_map h
    obtain ⟨us, rfl, hus⟩ := ih hmore
    exact ⟨.comma :: .name s :: us, rfl, fun first => .more first (hus s)⟩
  | case2 => simp [moreNames] at h
  | case3 t rest hname => simp [moreNames] at h
  | case4 ts h1 h2 h3 =>
    rw [moreNames] at h
    · cases h
      exact ⟨[], rfl, .single⟩
    all_goals simp_all

theorem moreNames_of_head {ts : List Token} (h : ts.head? ≠ some .comma) :
    moreNames ts = .ok ([], ts) := by
  unfold moreNames
  split
  · exact absurd rfl h
  · exact absurd rfl h
  · exact absurd rfl h
  · rfl

theorem moreNames_of_names {ts : List Token} {names : List String} (h : Names ts names) :
    ∃ s us more, ts = .name s :: us ∧ names = s :: more ∧
      ∀ rest, rest.head? ≠ some .comma → moreNames (us ++ rest) = .ok (more, rest) := by
  induction h with
  | single s =>
    exact ⟨s, [], [], rfl, rfl, fun rest hrest => moreNames_of_head hrest⟩
  | more s _ ih =>
    obtain ⟨s', us, more, rfl, rfl, hmore⟩ := ih
    refine ⟨s, .comma :: .name s' :: us, s' :: more, rfl, rfl, fun rest hrest => ?_⟩
    rw [List.cons_append, List.cons_append, moreNames, hmore rest hrest]
    rfl

theorem projects_of_projection {ts : List Token} {r : Projection × List Token}
    (h : projection ts = .ok r) : ∃ us, ts = us ++ r.2 ∧ Projects us r.1 := by
  unfold projection at h
  split at h
  · cases h
    exact ⟨[.star], rfl, .all⟩
  · obtain ⟨⟨first, rest⟩, hfirst, h⟩ := Except.exists_of_bind h
    obtain ⟨more, hmore, h⟩ := Except.exists_of_bind h
    cases h
    obtain ⟨us, hus, hnames⟩ := names_of_moreNames hmore
    refine ⟨.name first :: us, ?_, .columns (hnames first)⟩
    rw [name_eq_ok hfirst, List.cons_append, ← hus]

theorem projection_of_projects {ts rest : List Token} {p : Projection} (h : Projects ts p)
    (hrest : rest.head? ≠ some .comma) : projection (ts ++ rest) = .ok (p, rest) := by
  cases h with
  | all => rfl
  | columns h =>
    obtain ⟨s, us, more, rfl, rfl, hmore⟩ := moreNames_of_names h
    rw [List.cons_append, projection]
    · have hname : name .columnNameOrStar (.name s :: (us ++ rest)) = .ok (s, us ++ rest) := rfl
      simp only [hname, bind, Except.bind, hmore rest hrest]
      rfl
    · nofun

theorem filters_iff {ts : List Token} {predicate : Option Predicate} :
    condition ts = .ok predicate ↔ Filters ts predicate := by
  constructor
  · intro h
    cases ts with
    | nil =>
      cases h
      exact .none
    | cons word rest =>
      rw [condition] at h
      split_ifs at h with hword
      obtain ⟨p, hp, rfl⟩ := Except.exists_of_map h
      exact .some hword (Predicate.ofTokens_iff.mp hp)
  · rintro (_ | ⟨hword, hp⟩)
    · rfl
    · rw [condition, if_pos hword, Predicate.ofTokens_iff.mpr hp]
      rfl

theorem states_of_selection {word : Token} {ts : List Token} {s : Select}
    (hword : word.isKeyword "select" = true) (h : selection ts = .ok s) :
    States (word :: ts) (.select s) := by
  obtain ⟨⟨projection, us⟩, hprojection, h⟩ := Except.exists_of_bind h
  obtain ⟨⟨⟨⟩, vs⟩, hfrom, h⟩ := Except.exists_of_bind h
  obtain ⟨⟨table, ws⟩, htable, h⟩ := Except.exists_of_bind h
  obtain ⟨predicate, hpredicate, h⟩ := Except.exists_of_bind h
  cases h
  obtain ⟨ps, rfl, hps⟩ := projects_of_projection hprojection
  obtain ⟨word', hword', rfl⟩ := keyword_eq_ok hfrom
  obtain rfl := name_eq_ok htable
  exact .select hword hps hword' (filters_iff.mp hpredicate)

theorem states_of_description {word : Token} {ts : List Token} {table : String}
    (hword : word.isKeyword "describe" = true) (h : description ts = .ok table) :
    States (word :: ts) (.describe table) := by
  obtain ⟨⟨found, us⟩, hname, h⟩ := Except.exists_of_bind h
  cases us with
  | nil =>
    cases h
    rw [name_eq_ok hname]
    exact .describe hword
  | cons t us => cases h

theorem selection_of_parts {word : Token} {ps ws : List Token} {projected : Projection}
    {table : String} {predicate : Option Predicate} (hps : Projects ps projected)
    (hword : word.isKeyword "from" = true) (hws : Filters ws predicate) :
    selection (ps ++ word :: .name table :: ws) = .ok ⟨table, projected, predicate⟩ := by
  have hcomma : (word :: .name table :: ws).head? ≠ some .comma := by
    rw [List.head?_cons, Option.some_inj.ne]
    rintro rfl
    cases hword
  have hfrom : keyword .fromKeyword (word :: .name table :: ws) = .ok ((), .name table :: ws) :=
    keyword_of_isKeyword .fromKeyword _ hword
  have htable : name .tableName (.name table :: ws) = .ok (table, ws) := rfl
  simp only [selection, projection_of_projects hps hcomma, hfrom, htable, filters_iff.mpr hws,
    bind, Except.bind]
  rfl

/-- A statement is read from its tokens exactly if the grammar derives it from them. -/
theorem ofTokens_iff {ts : List Token} {statement : Statement} :
    ofTokens ts = .ok statement ↔ States ts statement := by
  constructor
  · intro h
    cases ts with
    | nil => cases h
    | cons word ts =>
      rw [ofTokens] at h
      split_ifs at h with hword
      · obtain ⟨table, htable, rfl⟩ := Except.exists_of_map h
        exact states_of_description hword htable
      · obtain ⟨r, hr, h⟩ := Except.exists_of_bind h
        obtain ⟨s, hs, rfl⟩ := Except.exists_of_map h
        obtain ⟨_, hselect, heq⟩ := keyword_eq_ok hr
        cases heq
        exact states_of_selection hselect hs
  · rintro (⟨hselect, hps, hfrom, hws⟩ | hdescribe)
    · have hdescribe := Token.isKeyword_eq_false hselect (b := "describe") (by decide)
      rw [ofTokens, if_neg (by simp [hdescribe]), keyword_of_isKeyword .selectKeyword _ hselect,
        Except.bind, selection_of_parts hps hfrom hws]
      rfl
    · rw [ofTokens, if_pos hdescribe]
      rfl

end Statement

end Timeslice
