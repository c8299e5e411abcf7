import Timeslice.Predicate.Evaluation
import Timeslice.Proofs.Predicate.Grammar
import Timeslice.Proofs.Predicate.Lexing

/-!
# Reading printed predicates back

The printer leaves out the parentheses of a right operand that has the connective of its parent, so
a printed predicate is read back with its operands joined to the left. Evaluation cannot tell the
two apart.
-/

namespace Timeslice.Predicate

mutual

def regroupAnd (before : Option Predicate) : Predicate → Predicate
  | compare c => conjoin before (compare c)
  | and left right => regroupAnd (some (regroupAnd before left)) right
  | or left right => conjoin before (regroupOr (some (regroupOr none left)) right)

def regroupOr (before : Option Predicate) : Predicate → Predicate
  | compare c => disjoin before (compare c)
  | and left right => disjoin before (regroupAnd (some (regroupAnd none left)) right)
  | or left right => regroupOr (some (regroupOr before left)) right

end

/-- The predicate with all operands of one connective joined to the left. -/
def regroup (p : Predicate) : Predicate :=
  regroupOr none p

section Evaluation

variable (columns : List Column) (row : Row)

theorem evaluate_and (left right : Predicate) :
    (and left right).evaluate columns row =
      (left.evaluate columns row).bind fun b =>
        if b then right.evaluate columns row else .ok false := by
  rw [evaluate]
  rcases left.evaluate columns row with f | b
  · rfl
  · cases b <;> rfl

theorem evaluate_or (left right : Predicate) :
    (or left right).evaluate columns row =
      (left.evaluate columns row).bind fun b =>
        if b then .ok true else right.evaluate columns row := by
  rw [evaluate]
  rcases left.evaluate columns row with f | b
  · rfl
  · cases b <;> rfl

theorem evaluate_and_assoc (p q r : Predicate) :
    (and (and p q) r).evaluate columns row = (and p (and q r)).evaluate columns row := by
  simp only [evaluate_and]
  rcases p.evaluate columns row with f | b
  · rfl
  · cases b <;> rfl

theorem evaluate_or_assoc (p q r : Predicate) :
    (or (or p q) r).evaluate columns row = (or p (or q r)).evaluate columns row := by
  simp only [evaluate_or]
  rcases p.evaluate columns row with f | b
  · rfl
  · cases b <;> rfl

theorem evaluate_conjoin_and (before : Option Predicate) (p q : Predicate) :
    (and (conjoin before p) q).evaluate columns row =
      (conjoin before (and p q)).evaluate columns row := by
  cases before with
  | none => rfl
  | some b => exact evaluate_and_assoc columns row b p q

theorem evaluate_disjoin_or (before : Option Predicate) (p q : Predicate) :
    (or (disjoin before p) q).evaluate columns row =
      (disjoin before (or p q)).evaluate columns row := by
  cases before with
  | none => rfl
  | some b => exact evaluate_or_assoc columns row b p q

theorem evaluate_conjoin_congr (before : Option Predicate) {p q : Predicate}
    (h : p.evaluate columns row = q.evaluate columns row) :
    (conjoin before p).evaluate columns row = (conjoin before q).evaluate columns row := by
  cases before with
  | none => exact h
  | some b => simp only [conjoin, evaluate_and, h]

theorem evaluate_disjoin_congr (before : Option Predicate) {p q : Predicate}
    (h : p.evaluate columns row = q.evaluate columns row) :
    (disjoin before p).evaluate columns row = (disjoin before q).evaluate columns row := by
  cases before with
  | none => exact h
  | some b => simp only [disjoin, evaluate_or, h]

theorem evaluate_regroup_joined (p : Predicate) : ∀ before,
    (regroupAnd before p).evaluate columns row = (conjoin before p).evaluate columns row ∧
      (regroupOr before p).evaluate columns row = (disjoin before p).evaluate columns row := by
  induction p with
  | compare c => exact fun before => ⟨rfl, rfl⟩
  | and left right ihl ihr =>
    have hand : ∀ before, (regroupAnd before (and left right)).evaluate columns row =
        (conjoin before (and left right)).evaluate columns row := by
      intro before
      rw [regroupAnd, (ihr _).1, ← evaluate_conjoin_and]
      simp only [conjoin, evaluate_and, (ihl before).1]
    exact fun before => ⟨hand before, evaluate_disjoin_congr columns row before (hand none)⟩
  | or left right ihl ihr =>
    have hor : ∀ before, (regroupOr before (or left right)).evaluate columns row =
        (disjoin before (or left right)).evaluate columns row := by
      intro before
      rw [regroupOr, (ihr _).2, ← evaluate_disjoin_or]
      simp only [disjoin, evaluate_or, (ihl before).2]
    exact fun before => ⟨evaluate_conjoin_congr columns row before (hor none), hor before⟩

theorem evaluate_regroup (p : Predicate) :
    p.regroup.evaluate columns row = p.evaluate columns row :=
  (evaluate_regroup_joined columns row p none).2

end Evaluation

end Timeslice.Predicate

namespace Timeslice

/-- No column has the name of a truth, for such a name is read as a literal. -/
def Comparison.IsReadable (c : Comparison) : Prop :=
  Operand.ofName c.column = .column c.column

def Predicate.IsReadable (p : Predicate) : Prop :=
  p.All Comparison.IsReadable

namespace Grammar

open Predicate

theorem means_literal (l : Literal) : Means l.token (.value l) := by
  cases l with
  | text s => exact .text s
  | integer v => exact .integer v
  | decimal v => exact .decimal v
  | truth b => exact .truth b (beq_self_eq_true _)

theorem derives_comparison {c : Comparison} (h : c.IsReadable) :
    Derives .term c.tokens (.compare c) :=
  .columnFirst c.comparator (means_iff.mpr (congrArg some h)) (means_literal c.literal)

/-- Behind what a term of AND is joined to, its tokens make up what it is regrouped to. -/
def DerivesTerm (p : Predicate) : Prop :=
  ∀ before ts, Leads .conjunction "and" before ts →
    Derives .conjunction (ts ++ if p.isOr then enclosed p.tokens else p.tokens)
      (regroupAnd before p)

def DerivesOperand (p : Predicate) : Prop :=
  ∀ before ts, Leads .disjunction "or" before ts →
    Derives .disjunction (ts ++ p.tokens) (regroupOr before p)

theorem derivesTerm_and {p q : Predicate} (hp : DerivesTerm p) (hq : DerivesTerm q) :
    DerivesTerm (.and p q) := by
  intro before ts hbefore
  have hand : Token.isKeyword "and" (.name "AND") = true := by decide
  have hright := hq _ _ ((hp before ts hbefore).leads hand)
  simpa [isOr, tokens, regroupAnd] using hright

theorem derivesOperand_of_term {p : Predicate} (hor : p.isOr = false)
    (hregroup : ∀ before, regroupOr before p = disjoin before (regroupAnd none p))
    (h : DerivesTerm p) : DerivesOperand p := by
  intro before ts hbefore
  have hterm := h none [] rfl
  rw [hor, if_neg Bool.false_ne_true, List.nil_append] at hterm
  rw [hregroup]
  exact hbefore.disjoin hterm

theorem derivesOperand_or {p q : Predicate} (hp : DerivesOperand p) (hq : DerivesOperand q) :
    DerivesOperand (.or p q) := by
  intro before ts hbefore
  have hor : Token.isKeyword "or" (.name "OR") = true := by decide
  have hright := hq _ _ ((hp before ts hbefore).leads hor)
  simpa [tokens, regroupOr] using hright

theorem derivesTerm_of_operand {p : Predicate} (hor : p.isOr = true)
    (hregroup : ∀ before, regroupAnd before p = conjoin before (regroupOr none p))
    (h : DerivesOperand p) : DerivesTerm p := by
  intro before ts hbefore
  have hoperand := h none [] rfl
  rw [List.nil_append] at hoperand
  rw [if_pos hor, hregroup]
  exact hbefore.conjoin (.parentheses hoperand)

theorem derives_operands {p : Predicate} (h : p.IsReadable) :
    DerivesTerm p ∧ DerivesOperand p := by
  induction p with
  | compare c =>
    have hterm : DerivesTerm (.compare c) := fun _ _ hbefore =>
      hbefore.conjoin (derives_comparison h)
    exact ⟨hterm, derivesOperand_of_term rfl (fun _ => rfl) hterm⟩
  | and left right ihl ihr =>
    have hterm := derivesTerm_and (ihl h.1).1 (ihr h.2).1
    exact ⟨hterm, derivesOperand_of_term rfl (fun _ => rfl) hterm⟩
  | or left right ihl ihr =>
    have hoperand := derivesOperand_or (ihl h.1).2 (ihr h.2).2
    exact ⟨derivesTerm_of_operand rfl (fun _ => rfl) hoperand, hoperand⟩

/-- The tokens of a predicate make up the regrouped predicate. -/
theorem derives_tokens {p : Predicate} (h : p.IsReadable) :
    Derives .disjunction p.tokens p.regroup :=
  (derives_operands h).2 none [] rfl

end Grammar

namespace Predicate

theorem read_of_lexes {cs : List Char} {ts : List Token} {p : Predicate}
    (hlexes : Lexer.Lexes cs ts) (hp : Grammar.Derives .disjunction ts p) :
    read (String.ofList cs) = .ok p := by
  have hts := ofTokens_iff.mpr hp
  have hne : ts ≠ [] := by
    rintro rfl
    cases hts
  rw [read, hlexes.read hne, Except.bind, hts]

/-- A printed predicate reads back, up to the grouping of its operands. -/
theorem read_text {p : Predicate} (hread : p.IsReadable) (hfin : p.IsFinite) :
    read p.text = .ok p.regroup := by
  rw [read, lexer_read_text hfin, Except.bind, ofTokens_iff.mpr (Grammar.derives_tokens hread)]

theorem all_conjoin {P : Comparison → Prop} {before : Option Predicate} {p : Predicate}
    (hbefore : ∀ q ∈ before, q.All P) (h : p.All P) : (conjoin before p).All P := by
  cases before with
  | none => exact h
  | some b => exact ⟨hbefore b rfl, h⟩

end Predicate

namespace Grammar

theorem Means.isReadable {t : Token} {c : Comparison} (h : Means t (.column c.column)) :
    c.IsReadable := by
  obtain ⟨column, comparator, literal⟩ := c
  cases h with
  | column htrue hfalse => simp [Comparison.IsReadable, Operand.ofName, htrue, hfalse]

theorem Derives.isReadable {category : Category} {ts : List Token} {p : Predicate}
    (h : Derives category ts p) : p.IsReadable := by
  induction h with
  | columnFirst _ hcolumn _ => exact hcolumn.isReadable
  | valueFirst _ hcolumn _ => exact hcolumn.isReadable
  | parentheses _ ih => exact ih
  | single _ ih => exact ih
  | and _ _ _ ihl ihr => exact ⟨ihl, ihr⟩
  | conjunction _ ih => exact ih
  | or _ _ _ ihl ihr => exact ⟨ihl, ihr⟩

end Grammar

namespace Predicate

theorem ofName_of_mentions {column : String} {p : Predicate} (h : p.IsReadable)
    (hmentions : p.mentions column = true) : Operand.ofName column = .column column := by
  induction p with
  | compare c =>
    obtain rfl : column = c.column := by simpa [mentions, columns] using hmentions
    exact h
  | and left right ihl ihr | or left right ihl ihr =>
    have hside : left.mentions column = true ∨ right.mentions column = true := by
      simpa [mentions, columns] using hmentions
    rcases hside with hleft | hright
    · exact ihl h.1 hleft
    · exact ihr h.2 hright

end Predicate

/-- What has been read can be printed and read again. -/
theorem Predicate.isReadable_of_ofTokens {ts : List Token} {p : Predicate}
    (h : ofTokens ts = .ok p) : p.IsReadable :=
  (ofTokens_iff.mp h).isReadable

theorem Statement.read_select {s : String} {select : Select} (h : read s = .ok (.select select)) :
    select.projection ≠ .columns [] ∧ ∀ p ∈ select.predicate, p.IsReadable := by
  obtain ⟨ts, hlex, hts⟩ := Except.exists_of_bind h
  cases ofTokens_iff.mp hts with
  | select _ hprojects _ hfilters =>
    constructor
    · rintro rfl
      obtain _ | hnames := hprojects
      cases hnames
    · rintro p rfl
      cases hfilters with
      | some _ hp => exact hp.isReadable

end Timeslice
