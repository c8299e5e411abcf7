import Timeslice.Proofs.Predicate.Grouping
import Timeslice.Proofs.Predicate.Seams

/-!
# Putting predicates together by their texts

Texts that are read as predicates can be put in parentheses and joined by AND and OR, wherever the
last token of the one and the first token of the other stand. Without parentheses an OR makes one
chain of the operands on both sides, which shows neither in a text nor in a value.
-/

namespace Timeslice

namespace Grammar

open Predicate (Shifts)

/-- An OR between two disjunctions joins the operands of the second one to the first one, one by
one. -/
theorem Derives.or_disjunction {ts us : List Token} {word : Token} {p q : Predicate}
    (hp : Derives .disjunction ts p) (hword : word.isKeyword "or" = true)
    (hq : Derives .disjunction us q) :
    ∃ r, Derives .disjunction (ts ++ word :: us) r ∧ Shifts (.or p q) r := by
  generalize hcategory : Category.disjunction = category at hq
  induction hq with
  | columnFirst | valueFirst | parentheses | single | and => cases hcategory
  | @conjunction us q hq => exact ⟨.or p q, .or hp hword hq, .refl _⟩
  | @or us vs word' q q' _ hword' hq' ih =>
    obtain ⟨r, hr, hshifts⟩ := ih rfl
    refine ⟨.or r q', ?_, (Shifts.or_left p q q').trans (.or hshifts (.refl q'))⟩
    simpa using Derives.or hr hword' hq'

end Grammar

namespace Predicate

variable {s s' : String} {p q : Predicate}

theorem exists_lexes_of_read (h : read s = .ok p) :
    ∃ ts, Lexer.Lexes s.toList ts ∧ Grammar.Derives .disjunction ts p := by
  obtain ⟨ts, hlex, hts⟩ := Except.exists_of_bind h
  exact ⟨ts, Lexer.lexes_of_tokens (Lexer.read_eq_ok_iff.mp hlex).1, ofTokens_iff.mp hts⟩

def parenthesize (s : String) : String :=
  "(" ++ s ++ ")"

theorem toList_parenthesize (s : String) :
    (parenthesize s).toList = parenthesized s.toList := by
  simp [parenthesize, parenthesized]

def joinTexts (s word s' : String) : String :=
  s ++ " " ++ word ++ " " ++ s'

theorem toList_joinTexts (s word s' : String) :
    (joinTexts s word s').toList = s.toList ++ ' ' :: (word.toList ++ ' ' :: s'.toList) := by
  simp [joinTexts]

theorem lexes_joinTexts {word : String} {ts us vs : List Token} (hs : Lexer.Lexes s.toList ts)
    (hword : Lexer.Lexes word.toList vs) (hs' : Lexer.Lexes s'.toList us) :
    Lexer.Lexes (joinTexts s word s').toList (ts ++ (vs ++ us)) := by
  rw [toList_joinTexts]
  exact hs.append_space (hword.append_space hs')

theorem lexes_parenthesize {ts : List Token} (h : Lexer.Lexes s.toList ts) :
    Lexer.Lexes (parenthesize s).toList (enclosed ts) := by
  rw [toList_parenthesize]
  exact h.parenthesized

theorem read_of_lexes_toList {ts : List Token} (hlexes : Lexer.Lexes s.toList ts)
    (hp : Grammar.Derives .disjunction ts p) : read s = .ok p := by
  rw [← s.ofList_toList]
  exact read_of_lexes hlexes hp

/-- How texts of predicates make up the text of one predicate. -/
structure Composes (s s' : String) (p q : Predicate) : Prop where
  parenthesized : read (parenthesize s) = .ok p
  and : read (joinTexts (parenthesize s) "AND" (parenthesize s')) = .ok (.and p q)
  or : read (joinTexts (parenthesize s) "OR" (parenthesize s')) = .ok (.or p q)
  /-- Without parentheses the operands of both sides are one chain. -/
  joined : ∃ r, read (joinTexts s "OR" s') = .ok r ∧ Shifts (.or p q) r ∧
    ∀ columns row, r.evaluate columns row = (Predicate.or p q).evaluate columns row

/-- Any texts that are read as predicates can be put together. -/
theorem composes (h : read s = .ok p) (h' : read s' = .ok q) : Composes s s' p q := by
  obtain ⟨ts, hlexes, hp⟩ := exists_lexes_of_read h
  obtain ⟨us, hlexes', hq⟩ := exists_lexes_of_read h'
  have hleft := lexes_parenthesize hlexes
  have hright := lexes_parenthesize hlexes'
  have hand : Token.isKeyword "and" (.name "AND") = true := by decide
  have hor : Token.isKeyword "or" (.name "OR") = true := by decide
  have hlexesAnd := @lexes_keyword "AND" (by decide +kernel)
  have hlexesOr := @lexes_keyword "OR" (by decide +kernel)
  have hfirst : Grammar.Derives .conjunction (enclosed ts) p := .single (.parentheses hp)
  constructor
  case parenthesized => exact read_of_lexes_toList hleft (.conjunction hfirst)
  case and =>
    exact read_of_lexes_toList (lexes_joinTexts hleft hlexesAnd hright)
      (.conjunction (.and hfirst hand (.parentheses hq)))
  case or =>
    exact read_of_lexes_toList (lexes_joinTexts hleft hlexesOr hright)
      (.or (.conjunction hfirst) hor (.single (.parentheses hq)))
  case joined =>
    obtain ⟨r, hr, hshifts⟩ := hp.or_disjunction hor hq
    exact ⟨r, read_of_lexes_toList (lexes_joinTexts hlexes hlexesOr hlexes') hr, hshifts,
      fun columns row => (hshifts.evaluate_eq columns row).symm⟩

/-- A quote stands at the seam of the two texts, and both have an OR. -/
theorem composes_at_quotes :
    read "load = 1 or host = 'it''s'" =
        .ok (.or (.compare ⟨"load", .equal, .integer 1⟩) (.compare ⟨"host", .equal, .text "it's"⟩)) ∧
      read "\"a b\" < 2or load != 9" =
        .ok (.or (.compare ⟨"a b", .less, .integer 2⟩) (.compare ⟨"load", .notEqual, .integer 9⟩)) ∧
      Composes "load = 1 or host = 'it''s'" "\"a b\" < 2or load != 9"
        (.or (.compare ⟨"load", .equal, .integer 1⟩) (.compare ⟨"host", .equal, .text "it's"⟩))
        (.or (.compare ⟨"a b", .less, .integer 2⟩) (.compare ⟨"load", .notEqual, .integer 9⟩)) :=
  ⟨by decide +kernel, by decide +kernel, composes (by decide +kernel) (by decide +kernel)⟩

end Predicate

end Timeslice
