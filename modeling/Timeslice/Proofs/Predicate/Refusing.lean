import Timeslice.Proofs.Predicate.Reading

/-!
# Printed predicates that are not read back

A decimal that is not finite has no digits. With a minus sign its text starts no token, and without
one it is a name, where a comparison that has its column waits for a literal. So a predicate is read
back exactly if its decimals are finite.
-/

namespace Timeslice

theorem Double.literalChars_of_not_finite {d : Double} (h : d.isFinite = false) :
    d.literalChars = "NaN".toList ∨ d.literalChars = "inf".toList ∨
      d.literalChars = '-' :: "inf".toList := by
  have hwhole : d.isWhole = false := by rw [isWhole, h, Bool.false_and]
  rw [literalChars, hwhole, if_neg Bool.false_ne_true, chars, h]
  by_cases hnan : d.isNaN = true
  · exact .inl (if_pos hnan)
  · rw [if_neg hnan, Bool.not_false, if_pos rfl, signed]
    by_cases hnegative : d.isNegative = true
    · exact .inr (.inr (if_pos hnegative))
    · exact .inr (.inl (if_neg hnegative))

namespace PredicateParser

open Lexer (Lexes)

def readFrom (total : Nat) (state : State) (cs : List Char) : Except SyntaxFault Predicate :=
  (Lexer.tokens total cs).bind (run state)

/-- The characters are read as one term, whatever ends the word behind them. -/
def Passes (cs : List Char) : Prop :=
  ∀ total outer level rest, EndsWord rest → ∃ disjuncts current,
    readFrom total ⟨outer, .term level⟩ (cs ++ rest) =
      readFrom total ⟨outer, .joint disjuncts current⟩ rest

/-- The characters are not the beginning of a term, whatever ends the word behind them. -/
def Refuses (cs : List Char) : Prop :=
  ∀ total outer level rest, EndsWord rest →
    ∃ fault, readFrom total ⟨outer, .term level⟩ (cs ++ rest) = .error fault

def Joins (word : List Char) : Prop :=
  ∀ total outer disjuncts current cs, ∃ level,
    readFrom total ⟨outer, .joint disjuncts current⟩ (' ' :: (word ++ ' ' :: cs)) =
      readFrom total ⟨outer, .term level⟩ cs

variable {total : Nat} {outer : List Level} {level : Level} {state state' : State}
  {cs as bs word rest : List Char} {ts : List Token}

theorem readFrom_of_lexes (h : Lexes cs ts) (hrun : ∀ us, run state (ts ++ us) = run state' us)
    (hrest : EndsWord rest) : readFrom total state (cs ++ rest) = readFrom total state' rest := by
  unfold readFrom
  rw [h total rest hrest]
  cases Lexer.tokens total rest with
  | error fault => rfl
  | ok us => exact hrun us

theorem readFrom_of_token {c : Char} {t : Token} (hspace : Lexer.isSpace c = false)
    (h : Lexer.token c cs = .ok (t, rest)) (hrun : ∀ us, run state (t :: us) = run state' us) :
    readFrom total state (c :: cs) = readFrom total state' rest := by
  unfold readFrom
  rw [Lexer.tokens_cons hspace h]
  cases Lexer.tokens total rest with
  | error fault => rfl
  | ok us => exact hrun us

theorem readFrom_space : readFrom total state (' ' :: cs) = readFrom total state cs := by
  rw [readFrom, readFrom, Lexer.tokens_space]

theorem readFrom_openParen : readFrom total ⟨outer, .term level⟩ ('(' :: cs) =
    readFrom total ⟨level :: outer, .term .start⟩ cs :=
  readFrom_of_token (by decide) rfl fun _ => run_open

theorem readFrom_closeParen (disjuncts : Option Predicate) (current : Predicate) :
    readFrom total ⟨level :: outer, .joint disjuncts current⟩ (')' :: cs) =
      readFrom total ⟨outer, level.close (.disjoin disjuncts current)⟩ cs :=
  readFrom_of_token (by decide) rfl fun _ => run_close disjuncts current

theorem parenthesized_append (cs rest : List Char) :
    Predicate.parenthesized cs ++ rest = '(' :: (cs ++ ')' :: rest) := by
  simp [Predicate.parenthesized]

theorem Passes.parenthesized (h : Passes cs) : Passes (Predicate.parenthesized cs) := by
  intro total outer level rest _
  obtain ⟨disjuncts, current, hread⟩ :=
    h total (level :: outer) .start (')' :: rest) (endsWord_closeParen rest)
  refine ⟨level.disjuncts, .conjoin level.conjuncts (.disjoin disjuncts current), ?_⟩
  rw [parenthesized_append, readFrom_openParen, hread, readFrom_closeParen]
  rfl

theorem Refuses.parenthesized (h : Refuses cs) : Refuses (Predicate.parenthesized cs) := by
  intro total outer level rest _
  rw [parenthesized_append, readFrom_openParen]
  exact h total (level :: outer) .start (')' :: rest) (endsWord_closeParen rest)

theorem Refuses.append_space (h : Refuses as) (cs : List Char) : Refuses (as ++ ' ' :: cs) := by
  intro total outer level rest _
  rw [List.append_assoc, List.cons_append]
  exact h total outer level _ (endsWord_space _)

theorem joined_append (as word bs rest : List Char) :
    as ++ ' ' :: (word ++ ' ' :: bs) ++ rest = as ++ ' ' :: (word ++ ' ' :: (bs ++ rest)) := by
  simp

theorem Passes.join (ha : Passes as) (hword : Joins word) (hb : Passes bs) :
    Passes (as ++ ' ' :: (word ++ ' ' :: bs)) := by
  intro total outer level rest hrest
  obtain ⟨disjuncts, current, hleft⟩ := ha total outer level _ (endsWord_space _)
  obtain ⟨next, hnext⟩ := hword total outer disjuncts current (bs ++ rest)
  obtain ⟨disjuncts', current', hright⟩ := hb total outer next rest hrest
  exact ⟨disjuncts', current', by rw [joined_append, hleft, hnext, hright]⟩

theorem Passes.join_refuses (ha : Passes as) (hword : Joins word) (hb : Refuses bs) :
    Refuses (as ++ ' ' :: (word ++ ' ' :: bs)) := by
  intro total outer level rest hrest
  obtain ⟨disjuncts, current, hleft⟩ := ha total outer level _ (endsWord_space _)
  obtain ⟨next, hnext⟩ := hword total outer disjuncts current (bs ++ rest)
  obtain ⟨fault, hfault⟩ := hb total outer next rest hrest
  exact ⟨fault, by rw [joined_append, hleft, hnext, hfault]⟩

theorem joins_and : Joins "AND".toList := by
  intro total outer disjuncts current cs
  refine ⟨⟨disjuncts, some current⟩, ?_⟩
  have hlexes := @Predicate.lexes_keyword "AND" (by decide +kernel)
  rw [readFrom_space, readFrom_of_lexes hlexes (fun _ => run_and (by decide) disjuncts current)
    (endsWord_space cs), readFrom_space]

theorem joins_or : Joins "OR".toList := by
  intro total outer disjuncts current cs
  refine ⟨⟨some (.disjoin disjuncts current), none⟩, ?_⟩
  have hlexes := @Predicate.lexes_keyword "OR" (by decide +kernel)
  rw [readFrom_space, readFrom_of_lexes hlexes (fun _ => run_or (by decide) disjuncts current)
    (endsWord_space cs), readFrom_space]

theorem passes_comparison {c : Comparison} (hread : c.IsReadable) (hfinite : c.literal.IsFinite) :
    Passes (Predicate.comparisonChars c) := by
  intro total outer level rest hrest
  exact ⟨_, _, readFrom_of_lexes (Predicate.lexes_comparison hfinite)
    (takes_of_derives (Grammar.derives_comparison hread) outer level) hrest⟩

section Operands

variable {name word : String} {comparator : Comparator}

theorem refuses_second_name (hword : Operand.ofName word = .column word)
    (hplain : Predicate.isPlainName word.toList = true) (hrest : EndsWord rest) :
    ∃ fault, readFrom total ⟨outer, .operand level (.column name) comparator⟩
      (word.toList ++ rest) = .error fault := by
  unfold readFrom
  rw [Predicate.lexes_keyword hplain total rest hrest]
  cases Lexer.tokens total rest with
  | error fault => exact ⟨fault, rfl⟩
  | ok us =>
    refine ⟨.unexpectedToken .literal (.column word), ?_⟩
    have htoken : Operand.ofToken? (.name word) = some (.column word) := congrArg some hword
    simp only [Except.map, Except.bind, List.cons_append, run, step, htoken, Operand.compare]

theorem tokens_minus_inf (total : Nat) (rest : List Char) :
    ∃ fault, Lexer.tokens total ('-' :: ("inf".toList ++ rest)) = .error fault := by
  have hstarts : Text.startsName '-' = false := Lexer.not_startsName_of_mem (by decide)
  have htoken : Lexer.token '-' ('i' :: 'n' :: 'f' :: rest) = .error .character := by
    simp [Lexer.token, hstarts, show Numeral.isDigit '-' = false from rfl,
      show Numeral.isDigit 'i' = false from rfl]
  rw [Lexer.tokens, if_neg (by decide)]
  split
  · exact ⟨_, rfl⟩
  · next hok => cases htoken.symm.trans hok

theorem refuses_literal {l : Literal} (h : ¬ l.IsFinite) (hrest : EndsWord rest) :
    ∃ fault, readFrom total ⟨outer, .operand level (.column name) comparator⟩
      (l.chars ++ rest) = .error fault := by
  cases l with
  | text s => exact absurd trivial h
  | integer v => exact absurd trivial h
  | truth b => exact absurd trivial h
  | decimal d =>
    rw [Literal.chars]
    rcases Double.literalChars_of_not_finite (Bool.eq_false_iff.mpr h) with hd | hd | hd
    · rw [hd]
      exact refuses_second_name (by decide +kernel) (by decide +kernel) hrest
    · rw [hd]
      exact refuses_second_name (by decide +kernel) (by decide +kernel) hrest
    · obtain ⟨fault, hfault⟩ := tokens_minus_inf total rest
      exact ⟨fault, by rw [hd, readFrom, List.cons_append, hfault]; rfl⟩

end Operands

theorem refuses_comparison {c : Comparison} (hread : c.IsReadable) (h : ¬ c.literal.IsFinite) :
    Refuses (Predicate.comparisonChars c) := by
  intro total outer level rest hrest
  have hname : ∀ us, run ⟨outer, .term level⟩ ([.name c.column] ++ us) =
      run ⟨outer, .comparator level (.column c.column)⟩ us := by
    intro us
    have htoken : Operand.ofToken? (.name c.column) = some (.column c.column) := congrArg some hread
    have hopen : Token.name c.column ≠ .openParen := nofun
    simp only [List.cons_append, List.nil_append, run, step, if_neg hopen, htoken]
  have hcomparator : ∀ us, run ⟨outer, .comparator level (.column c.column)⟩
      ([.comparator c.comparator] ++ us) =
        run ⟨outer, .operand level (.column c.column) c.comparator⟩ us := fun _ => rfl
  rw [Predicate.comparisonChars, List.append_assoc, List.cons_append, List.append_assoc,
    List.cons_append, readFrom_of_lexes (Lexer.lexes_name c.column) hname (endsWord_space _),
    readFrom_space, readFrom_of_lexes (Lexer.lexes_comparator c.comparator) hcomparator
      (endsWord_space _), readFrom_space]
  exact refuses_literal h hrest

end PredicateParser

namespace Predicate

open PredicateParser

def termChars (p : Predicate) : List Char :=
  if p.isOr then parenthesized p.chars else p.chars

theorem chars_and (left right : Predicate) : (and left right).chars =
    left.termChars ++ ' ' :: ("AND".toList ++ ' ' :: right.termChars) := by
  simp [chars, termChars]

theorem chars_or (left right : Predicate) : (or left right).chars =
    left.chars ++ ' ' :: ("OR".toList ++ ' ' :: right.chars) := by
  simp [chars]

theorem passes_termChars {p : Predicate} (h : Passes p.chars) : Passes p.termChars := by
  unfold termChars
  split_ifs
  · exact h.parenthesized
  · exact h

theorem refuses_termChars {p : Predicate} (h : Refuses p.chars) : Refuses p.termChars := by
  unfold termChars
  split_ifs
  · exact h.parenthesized
  · exact h

theorem passes_chars {p : Predicate} (hread : p.IsReadable) (hfinite : p.IsFinite) :
    Passes p.chars := by
  induction p with
  | compare c => exact passes_comparison hread hfinite
  | and left right ihl ihr =>
    rw [chars_and]
    exact (passes_termChars (ihl hread.1 hfinite.1)).join joins_and
      (passes_termChars (ihr hread.2 hfinite.2))
  | or left right ihl ihr =>
    rw [chars_or]
    exact (ihl hread.1 hfinite.1).join joins_or (ihr hread.2 hfinite.2)

/-- The text of a predicate is refused at the first decimal that is not finite. -/
theorem refuses_chars {p : Predicate} (hread : p.IsReadable) (h : ¬ p.IsFinite) :
    Refuses p.chars := by
  induction p with
  | compare c => exact refuses_comparison hread h
  | and left right ihl ihr =>
    rw [chars_and]
    by_cases hleft : left.IsFinite
    · have hright : ¬ right.IsFinite := fun hright => h ⟨hleft, hright⟩
      exact (passes_termChars (passes_chars hread.1 hleft)).join_refuses joins_and
        (refuses_termChars (ihr hread.2 hright))
    · exact (refuses_termChars (ihl hread.1 hleft)).append_space _
  | or left right ihl ihr =>
    rw [chars_or]
    by_cases hleft : left.IsFinite
    · have hright : ¬ right.IsFinite := fun hright => h ⟨hleft, hright⟩
      exact (passes_chars hread.1 hleft).join_refuses joins_or (ihr hread.2 hright)
    · exact (ihl hread.1 hleft).append_space _

theorem read_ne_ok_of_refuses {cs : List Char} (h : Refuses cs) (q : Predicate) :
    read (String.ofList cs) ≠ .ok q := by
  intro hq
  obtain ⟨ts, hlex, hts⟩ := Except.exists_of_bind hq
  obtain ⟨fault, hfault⟩ := h (Lexer.width cs) [] .start [] endsWord_nil
  rw [List.append_nil, readFrom] at hfault
  rw [Lexer.read, String.toList_ofList] at hlex
  cases htokens : Lexer.tokens (Lexer.width cs) cs with
  | error fault' =>
    rw [htokens] at hlex
    cases hlex
  | ok us =>
    rw [htokens] at hlex hfault
    cases us with
    | nil => cases hlex
    | cons u us =>
      cases hlex
      rw [Except.bind, show run ⟨[], .term .start⟩ (u :: us) = .ok q from hts] at hfault
      cases hfault

/-- A printed predicate is read back exactly if its decimals are finite. -/
theorem exists_read_text_iff {p : Predicate} (hread : p.IsReadable) :
    (∃ q, read p.text = .ok q) ↔ p.IsFinite := by
  refine ⟨?_, fun hfinite => ⟨p.regroup, read_text hread hfinite⟩⟩
  rintro ⟨q, hq⟩
  by_contra hfinite
  exact read_ne_ok_of_refuses (refuses_chars hread hfinite) q hq

end Predicate

end Timeslice
