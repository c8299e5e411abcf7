import Timeslice.Proofs.Predicate.Grammar

/-!
# Reading by recursive descent

A predicate can also be read by functions that call each other, one for each category of the
grammar. Each of them takes tokens off the front, so that there are fewer of them for the calls
inside it, and all of them end on any tokens. They read what the parser reads, and where the parser
fails they fail with the same fault.
-/

namespace Timeslice.Descent

/-- What has been read off the front of tokens, and the tokens behind it. -/
structure Front (α : Type) (ts : List Token) where
  item : α
  rest : List Token
  fewer : rest.length < ts.length

def operand : (ts : List Token) → Except SyntaxFault (Front Operand ts)
  | [] => .error (.unexpectedEnd .columnOrLiteral)
  | t :: rest =>
    match Operand.ofToken? t with
    | some o => .ok ⟨o, rest, Nat.lt_succ_self _⟩
    | none => .error (.unexpectedToken .columnOrLiteral (.token t))

def comparator : (ts : List Token) → Except SyntaxFault (Front Comparator ts)
  | [] => .error (.unexpectedEnd .comparator)
  | .comparator c :: rest => .ok ⟨c, rest, Nat.lt_succ_self _⟩
  | t :: _ => .error (.unexpectedToken .comparator (.token t))

def comparison (ts : List Token) : Except SyntaxFault (Front Predicate ts) := do
  let left ← operand ts
  let c ← comparator left.rest
  let right ← operand c.rest
  let d ← left.item.compare c.item right.item
  return ⟨.compare d, right.rest, Nat.lt_trans (Nat.lt_trans right.fewer c.fewer) left.fewer⟩

def chain {ts : List Token} (keyword : String) (join : Predicate → Predicate → Predicate)
    (next : (us : List Token) → us.length < ts.length → Except SyntaxFault (Front Predicate us))
    (left : Front Predicate ts) : Except SyntaxFault (Front Predicate ts) :=
  match hrest : left.rest with
  | [] => .ok left
  | word :: us =>
    have hlt : us.length < left.rest.length := by rw [hrest]; exact Nat.lt_succ_self _
    if word.isKeyword keyword then do
      let right ← next us (Nat.lt_trans hlt left.fewer)
      have hright := Nat.lt_trans right.fewer hlt
      chain keyword join next
        ⟨join left.item right.item, right.rest, Nat.lt_trans hright left.fewer⟩
    else .ok left
termination_by left.rest.length

mutual

def term (ts : List Token) : Except SyntaxFault (Front Predicate ts) :=
  match ts with
  | .openParen :: us => do
    let inner ← disjunction us
    match hrest : inner.rest with
    | .closeParen :: rest =>
      have hlt : rest.length < inner.rest.length := by rw [hrest]; exact Nat.lt_succ_self _
      .ok ⟨inner.item, rest, Nat.lt_succ_of_lt (Nat.lt_trans hlt inner.fewer)⟩
    | [] => .error (.unexpectedEnd .closeParen)
    | t :: _ => .error (.unexpectedToken .closeParen (.token t))
  | ts => comparison ts
termination_by (ts.length, 0)

def conjunction (ts : List Token) : Except SyntaxFault (Front Predicate ts) := do
  let left ← term ts
  chain "and" .and (fun us _ => term us) left
termination_by (ts.length, 1)

def disjunction (ts : List Token) : Except SyntaxFault (Front Predicate ts) := do
  let left ← conjunction ts
  chain "or" .or (fun us _ => conjunction us) left
termination_by (ts.length, 2)

end

def predicate (ts : List Token) : Except SyntaxFault Predicate := do
  let p ← disjunction ts
  match p.rest with
  | [] => return p.item
  | t :: _ => throw (.unexpectedToken .endOfQuery (.token t))

open PredicateParser

section Agreement

variable {outer : List Level} {level : Level} {ts : List Token}

theorem run_operand (h : ts.head? ≠ some .openParen) :
    run ⟨outer, .term level⟩ ts =
      (operand ts).bind fun left => run ⟨outer, .comparator level left.item⟩ left.rest := by
  cases ts with
  | nil => rfl
  | cons t ts =>
    have hopen : t ≠ .openParen := by
      rintro rfl
      exact h rfl
    simp only [run, step, if_neg hopen, operand]
    cases Operand.ofToken? t <;> rfl

theorem run_comparator {left : Operand} :
    run ⟨outer, .comparator level left⟩ ts =
      (comparator ts).bind fun c => run ⟨outer, .operand level left c.item⟩ c.rest := by
  cases ts with
  | nil => rfl
  | cons t ts => cases t <;> rfl

theorem run_second_operand {left : Operand} {c : Comparator} :
    run ⟨outer, .operand level left c⟩ ts = (operand ts).bind fun right =>
      (left.compare c right.item).bind fun d =>
        run ⟨outer, level.close (.compare d)⟩ right.rest := by
  cases ts with
  | nil => rfl
  | cons t ts =>
    rw [run, step, operand]
    cases Operand.ofToken? t with
    | none => rfl
    | some right => cases h : left.compare c right <;> simp only [Except.bind, Except.map, h]

theorem run_comparison (h : ts.head? ≠ some .openParen) :
    run ⟨outer, .term level⟩ ts =
      (comparison ts).bind fun p => run ⟨outer, level.close p.item⟩ p.rest := by
  rw [run_operand h, comparison]
  cases operand ts with
  | error fault => rfl
  | ok left =>
    simp only [Bind.bind, Except.bind, run_comparator]
    cases comparator left.rest with
    | error fault => rfl
    | ok c =>
      simp only [run_second_operand]
      cases operand c.rest with
      | error fault => rfl
      | ok right =>
        simp only [Except.bind]
        cases left.item.compare c.item right.item <;> rfl

section Chains

variable {keyword : String} {join : Predicate → Predicate → Predicate}
  {next : (us : List Token) → us.length < ts.length → Except SyntaxFault (Front Predicate us)}

def Stops (keyword : String) (ts : List Token) : Prop :=
  ∀ t ∈ ts.head?, t.isKeyword keyword = false

theorem chain_of_stops {left : Front Predicate ts} (h : Stops keyword left.rest) :
    chain keyword join next left = .ok left := by
  rw [chain]
  split
  · rfl
  · next word us hrest =>
    have hword : word.isKeyword keyword = false := h word (by rw [hrest]; rfl)
    rw [if_neg (by simp [hword])]

theorem chain_of_keyword {p : Predicate} {word : Token} {us : List Token}
    (hlt : (word :: us).length < ts.length) (h : word.isKeyword keyword = true) :
    chain keyword join next ⟨p, word :: us, hlt⟩ =
      (next us (Nat.lt_of_succ_lt hlt)).bind fun right =>
        chain keyword join next ⟨join p right.item, right.rest,
          Nat.lt_trans right.fewer (Nat.lt_of_succ_lt hlt)⟩ := by
  rw [chain]
  simp only [h, if_true]
  rfl

theorem exists_keyword_or_stops (keyword : String) (left : Front Predicate ts) :
    (∃ p word us, ∃ hlt : (word :: us).length < ts.length, left = ⟨p, word :: us, hlt⟩ ∧
      word.isKeyword keyword = true) ∨ Stops keyword left.rest := by
  obtain ⟨p, rest, hlt⟩ := left
  rcases rest with _ | ⟨word, us⟩
  · exact .inr nofun
  · cases hword : word.isKeyword keyword with
    | true => exact .inl ⟨p, word, us, hlt, rfl, hword⟩
    | false => exact .inr (by rintro _ ⟨⟩; exact hword)

theorem rest_of_chain {P : List Token → Prop} {left front : Front Predicate ts}
    (hleft : P left.rest) (hnext : ∀ us hlt right, next us hlt = .ok right → P right.rest)
    (h : chain keyword join next left = .ok front) : P front.rest ∧ Stops keyword front.rest := by
  induction hn : left.rest.length using Nat.strongRecOn generalizing left with
  | ind n ih =>
    rcases exists_keyword_or_stops keyword left with ⟨p, word, us, hlt, rfl, hword⟩ | hstops
    · rw [chain_of_keyword hlt hword] at h
      obtain ⟨right, hright, h⟩ := Except.exists_of_bind h
      have hfewer : right.rest.length < n := by
        rw [← hn]
        exact Nat.lt_succ_of_lt right.fewer
      exact ih _ hfewer (hnext us _ right hright) h rfl
    · rw [chain_of_stops hstops] at h
      cases h
      exact ⟨hleft, hstops⟩

/-- The parser runs along a chain if it does so from one keyword to the next. -/
theorem run_chain (state : Predicate → State)
    (hjoin : ∀ p word us (hlt : us.length < ts.length), word.isKeyword keyword = true →
      run (state p) (word :: us) =
        (next us hlt).bind fun right => run (state (join p right.item)) right.rest)
    (left : Front Predicate ts) : run (state left.item) left.rest =
      (chain keyword join next left).bind fun front => run (state front.item) front.rest := by
  induction hn : left.rest.length using Nat.strongRecOn generalizing left with
  | ind n ih =>
    rcases exists_keyword_or_stops keyword left with ⟨p, word, us, hlt, rfl, hword⟩ | hstops
    · rw [chain_of_keyword hlt hword, hjoin p word us (Nat.lt_of_succ_lt hlt) hword]
      cases next us (Nat.lt_of_succ_lt hlt) with
      | error fault => rfl
      | ok right =>
        have hfewer : right.rest.length < n := by
          rw [← hn]
          exact Nat.lt_succ_of_lt right.fewer
        exact ih _ hfewer ⟨join p right.item, right.rest, _⟩ rfl
    · rw [chain_of_stops hstops]
      rfl

end Chains

def TermAgrees (ts : List Token) : Prop :=
  ∀ outer level, run ⟨outer, .term level⟩ ts =
    (term ts).bind fun p => run ⟨outer, level.close p.item⟩ p.rest

theorem run_conjunction (h : ∀ us : List Token, us.length ≤ ts.length → TermAgrees us)
    (outer : List Level) (d : Option Predicate) : run ⟨outer, .term ⟨d, none⟩⟩ ts =
      (conjunction ts).bind fun p => run ⟨outer, .joint d p.item⟩ p.rest := by
  rw [h ts (Nat.le_refl _), conjunction]
  cases term ts with
  | error fault => rfl
  | ok left =>
    refine run_chain (fun p => ⟨outer, .joint d p⟩) ?_ left
    intro p word us hlt hword
    rw [run_and hword, h us (Nat.le_of_lt hlt)]
    rfl

theorem stops_conjunction {front : Front Predicate ts} (h : conjunction ts = .ok front) :
    Stops "and" front.rest := by
  rw [conjunction] at h
  obtain ⟨left, -, h⟩ := Except.exists_of_bind h
  exact (rest_of_chain (P := fun _ => True) trivial (fun _ _ _ _ => trivial) h).2

theorem run_joint (h : Stops "and" ts) (outer : List Level) (d : Option Predicate)
    (cur : Predicate) : run ⟨outer, .joint d cur⟩ ts =
      run ⟨outer, .joint none (.disjoin d cur)⟩ ts := by
  cases ts with
  | nil => cases outer <;> rfl
  | cons t ts =>
    have hand : t.isKeyword "and" = false := h t rfl
    simp only [run, step, hand, Bool.false_eq_true, if_false, Predicate.disjoin]

theorem run_disjunction (h : ∀ us : List Token, us.length ≤ ts.length → TermAgrees us)
    (outer : List Level) : run ⟨outer, .term .start⟩ ts =
      (disjunction ts).bind fun p => run ⟨outer, .joint none p.item⟩ p.rest := by
  rw [Level.start, run_conjunction h, disjunction]
  cases conjunction ts with
  | error fault => rfl
  | ok left =>
    refine run_chain (fun p => ⟨outer, .joint none p⟩) ?_ left
    intro p word us hlt hword
    have hsmaller := fun vs hvs => h vs (Nat.le_trans hvs (Nat.le_of_lt hlt))
    rw [run_or hword, run_conjunction hsmaller]
    cases hright : conjunction us with
    | error fault => rfl
    | ok right => exact run_joint (stops_conjunction hright) outer _ _

theorem stops_disjunction {front : Front Predicate ts} (h : disjunction ts = .ok front) :
    Stops "and" front.rest ∧ Stops "or" front.rest := by
  rw [disjunction] at h
  obtain ⟨left, hleft, h⟩ := Except.exists_of_bind h
  exact rest_of_chain (stops_conjunction hleft) (fun _ _ _ => stops_conjunction) h

theorem run_of_stops {t : Token} (hand : Stops "and" (t :: ts)) (hor : Stops "or" (t :: ts))
    (hclose : t = .closeParen → outer = []) (p : Predicate) :
    run ⟨outer, .joint none p⟩ (t :: ts) =
      .error (.unexpectedToken (closing outer) (.token t)) := by
  simp only [run, step, hand t rfl, hor t rfl, Bool.false_eq_true, if_false]
  cases t with
  | closeParen =>
    obtain rfl := hclose rfl
    rfl
  | _ => rfl

theorem termAgrees (ts : List Token) : TermAgrees ts := by
  induction hn : ts.length using Nat.strongRecOn generalizing ts with
  | ind n ih =>
    intro outer level
    by_cases hopen : ts.head? = some .openParen
    · obtain ⟨us, rfl⟩ := List.head?_eq_some_iff.mp hopen
      have hsmaller : ∀ vs : List Token, vs.length ≤ us.length → TermAgrees vs := fun vs hvs =>
        ih _ (by rw [← hn]; exact Nat.lt_succ_of_le hvs) vs rfl
      rw [run_open, run_disjunction hsmaller, term]
      cases hinner : disjunction us with
      | error fault => rfl
      | ok inner =>
        obtain ⟨hand, hor⟩ := stops_disjunction hinner
        obtain ⟨p, rest, hfewer⟩ := inner
        rcases rest with _ | ⟨t, rest⟩
        · rfl
        · by_cases hclose : t = .closeParen
          · subst hclose
            rfl
          · refine (run_of_stops hand hor (fun heq => absurd heq hclose) p).trans ?_
            cases t with
            | closeParen => exact absurd rfl hclose
            | _ => rfl
    · rw [run_comparison hopen, term]
      rintro us rfl
      exact hopen rfl

/-- Descending, a predicate is read as the parser reads it, and refused with the same fault. -/
theorem predicate_eq (ts : List Token) : predicate ts = Predicate.ofTokens ts := by
  rw [Predicate.ofTokens, State.start, run_disjunction fun us _ => termAgrees us, predicate]
  cases h : disjunction ts with
  | error fault => rfl
  | ok front =>
    obtain ⟨hand, hor⟩ := stops_disjunction h
    obtain ⟨p, rest, hfewer⟩ := front
    rcases rest with _ | ⟨t, rest⟩
    · rfl
    · exact (run_of_stops hand hor (fun _ => rfl) p).symm

end Agreement

end Timeslice.Descent

namespace Timeslice.Grammar

/-- What the grammar says of tokens, and what becomes of them when they are read. -/
structure Decides (ts : List Token) : Prop where
  predicate : ∀ p, Predicate.ofTokens ts = .ok p ↔ Derives .disjunction ts p
  statement : ∀ s, Statement.ofTokens ts = .ok s ↔ States ts s
  predicate_unique : ∀ p q, Derives .disjunction ts p → Derives .disjunction ts q → p = q
  statement_unique : ∀ s s', States ts s → States ts s' → s = s'
  predicate_refused : (∃ fault, Predicate.ofTokens ts = .error fault) ↔
    ∀ p, ¬Derives .disjunction ts p
  statement_refused : (∃ fault, Statement.ofTokens ts = .error fault) ↔ ∀ s, ¬States ts s
  descends : Descent.predicate ts = Predicate.ofTokens ts

/-- Tokens are read exactly if the grammar derives something from them, which it is then read as. -/
theorem decides (ts : List Token) : Decides ts where
  predicate _ := Predicate.ofTokens_iff
  statement _ := Statement.ofTokens_iff
  predicate_unique _ _ := Except.eq_of_ok_iff fun _ => Predicate.ofTokens_iff
  statement_unique _ _ := Except.eq_of_ok_iff fun _ => Statement.ofTokens_iff
  predicate_refused := Except.exists_error_iff fun _ => Predicate.ofTokens_iff
  statement_refused := Except.exists_error_iff fun _ => Statement.ofTokens_iff
  descends := Descent.predicate_eq ts

/-- Where the grammar has no use for a keyword, it is a name like others. -/
example : Predicate.read "1 < or OR \"and\" = 2 And x > 3" =
    .ok (.or (.compare ⟨"or", .greater, .integer 1⟩)
      (.and (.compare ⟨"and", .equal, .integer 2⟩) (.compare ⟨"x", .greater, .integer 3⟩))) := by
  decide +kernel

end Timeslice.Grammar
