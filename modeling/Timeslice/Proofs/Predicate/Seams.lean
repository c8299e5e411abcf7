import Timeslice.Proofs.Predicate.Names
import Timeslice.Proofs.Results

/-!
# Seams between texts

A token ends where the next character goes on with no token. So a change of the characters behind it
that leaves alone the ones that go on with tokens does not change the token, and texts may be put
side by side at a place where the second one goes on with nothing.
-/

namespace Timeslice

theorem Text.continuesName_of_isDigit {c : Char} (h : Numeral.isDigit c = true) :
    continuesName c = true := by
  have hlt : c.toNat < 0x80 := by
    have hdigit : c.val ≤ '9'.val := by
      simp only [Numeral.isDigit, Char.isDigit, Bool.and_eq_true, decide_eq_true_eq] at h
      exact h.2
    rw [UInt32.le_iff_toNat_le] at hdigit
    exact Nat.lt_of_le_of_lt hdigit (by decide)
  have hnumeral : isNumeral c = true := by
    rw [isNumeral, if_pos hlt]
    exact h
  simp [continuesName, hnumeral]

namespace Quoted

theorem head?_of_close {q : Char} {cs : List Char} {r : List Char × List Char}
    (h : close q cs = some r) : r.2.head? ≠ some q := by
  induction cs using close.induct (q := q) generalizing r with
  | case1 => simp [close] at h
  | case2 =>
    simp only [close, if_true, Option.some.injEq] at h
    subst h
    simp
  | case3 c hc => simp [close, hc] at h
  | case4 rest ih =>
    simp only [close, if_true, Option.map_eq_some_iff] at h
    obtain ⟨s, hs, rfl⟩ := h
    exact ih (r := s) hs
  | case5 d rest hd =>
    simp only [close, if_true, hd, if_false, Option.some.injEq] at h
    subst h
    simpa using hd
  | case6 c d rest hc ih =>
    simp only [close, hc, if_false, Option.map_eq_some_iff] at h
    obtain ⟨s, hs, rfl⟩ := h
    exact ih (r := s) hs

/-- A quoted run ends at the first quote that is not written twice. -/
theorem close_eq_some_iff {q : Char} {cs : List Char} {r : List Char × List Char} :
    close q cs = some r ↔ cs = double q r.1 ++ q :: r.2 ∧ r.2.head? ≠ some q := by
  constructor
  · exact fun h => ⟨eq_of_close h, head?_of_close h⟩
  · rintro ⟨rfl, h⟩
    exact close_enclose q r.1 r.2 h

end Quoted

namespace Lexer

/-- The character can be part of a token that has begun before it and is not quoted. -/
def goesOn (c : Char) : Bool :=
  Text.continuesName c || c == '.' || c == '=' || c == '>'

theorem goesOn_of_continuesName {c : Char} (h : Text.continuesName c = true) :
    goesOn c = true := by
  simp [goesOn, h]

theorem goesOn_of_isDigit {c : Char} (h : Numeral.isDigit c = true) : goesOn c = true :=
  goesOn_of_continuesName (Text.continuesName_of_isDigit h)

/-- A change of a text that leaves alone the characters that go on with a token, and brings in none
of them. -/
structure Keeps (F : List Char → List Char) : Prop where
  cons : ∀ c, goesOn c = true → ∀ cs, F (c :: cs) = c :: F cs
  head : ∀ cs, (∀ c ∈ cs.head?, goesOn c = false) → ∀ c ∈ (F cs).head?, goesOn c = false

section Keeps

variable {F : List Char → List Char} {cs rest : List Char}

theorem span_of_head {p : Char → Bool} (h : ∀ c ∈ cs.head?, p c = false) :
    cs.takeWhile p = [] ∧ cs.dropWhile p = cs := by
  cases cs with
  | nil => exact ⟨rfl, rfl⟩
  | cons c cs => simp [h c rfl]

theorem Keeps.head_ne (hF : Keeps F) {d : Char} (hd : goesOn d = true)
    (h : cs.head? ≠ some d) : (F cs).head? ≠ some d := by
  by_cases hnone : ∀ c ∈ cs.head?, goesOn c = false
  · intro hhead
    rw [hF.head cs hnone d hhead] at hd
    cases hd
  · obtain ⟨c, hc, hgoes⟩ : ∃ c ∈ cs.head?, goesOn c = true := by simpa using hnone
    obtain ⟨tail, rfl⟩ := List.head?_eq_some_iff.mp hc
    rw [hF.cons c hgoes]
    exact h

theorem Keeps.span (hF : Keeps F) {p : Char → Bool} (hp : ∀ c, p c = true → goesOn c = true)
    (cs : List Char) :
    (F cs).takeWhile p = cs.takeWhile p ∧ (F cs).dropWhile p = F (cs.dropWhile p) := by
  induction cs with
  | nil =>
    refine span_of_head fun c hc => ?_
    have hgoes := hF.head [] nofun c hc
    exact Bool.eq_false_iff.mpr fun hpc => by simp [hp c hpc] at hgoes
  | cons c cs ih =>
    by_cases hpc : p c = true
    · rw [hF.cons c (hp c hpc)]
      simp [hpc, ih]
    · have hnone : ∀ d ∈ (F (c :: cs)).head?, p d = false := by
        intro d hd
        refine Bool.eq_false_iff.mpr fun hpd => ?_
        refine hF.head_ne (hp d hpd) ?_ hd
        rintro ⟨⟩
        exact hpc hpd
      simpa [hpc] using span_of_head hnone

theorem Keeps.span_isDigit (hF : Keeps F) (cs : List Char) :
    (F cs).takeWhile Numeral.isDigit = cs.takeWhile Numeral.isDigit ∧
      (F cs).dropWhile Numeral.isDigit = F (cs.dropWhile Numeral.isDigit) :=
  hF.span (fun _ => goesOn_of_isDigit) cs

theorem number_of_head_ne {negative : Bool}
    (h : (cs.dropWhile Numeral.isDigit).head? ≠ some '.') :
    number negative cs =
      match Word.signed64? (if negative then -(Numeral.value (cs.takeWhile Numeral.isDigit) : Int)
        else Numeral.value (cs.takeWhile Numeral.isDigit)) with
      | some v => .ok (.integer v, cs.dropWhile Numeral.isDigit)
      | none => .error (.number (String.ofList (if negative then
          '-' :: cs.takeWhile Numeral.isDigit else cs.takeWhile Numeral.isDigit))) := by
  unfold number
  split
  · next hrest =>
    rw [hrest] at h
    exact absurd rfl h
  · rfl

theorem Keeps.number (hF : Keeps F) (negative : Bool) (cs : List Char) :
    Lexer.number negative (F cs) = (Lexer.number negative cs).map fun r => (r.1, F r.2) := by
  obtain ⟨htake, hdrop⟩ := hF.span_isDigit cs
  by_cases hpoint : (cs.dropWhile Numeral.isDigit).head? = some '.'
  · obtain ⟨tail, htail⟩ := List.head?_eq_some_iff.mp hpoint
    obtain ⟨htake', hdrop'⟩ := hF.span_isDigit tail
    rw [htail, hF.cons '.' (by decide +kernel)] at hdrop
    unfold Lexer.number
    simp only [htake, hdrop, htail, htake', hdrop']
    rfl
  · have hpoint' := hF.head_ne (by decide +kernel) hpoint
    rw [← hdrop] at hpoint'
    rw [number_of_head_ne hpoint, number_of_head_ne hpoint', htake, hdrop]
    cases Word.signed64? (if negative then -(Numeral.value (cs.takeWhile Numeral.isDigit) : Int)
      else Numeral.value (cs.takeWhile Numeral.isDigit)) <;> rfl

theorem token_bang_of_head_ne (h : cs.head? ≠ some '=') : token '!' cs = .error .character := by
  have hstarts : Text.startsName '!' = false := not_startsName_of_mem (by decide)
  unfold token
  split <;> simp_all [show Numeral.isDigit '!' = false from rfl]

theorem token_less_of_head_ne (h : cs.head? ≠ some '=') (h' : cs.head? ≠ some '>') :
    token '<' cs = .ok (.comparator .less, cs) := by
  unfold token
  split <;> simp_all

theorem token_greater_of_head_ne (h : cs.head? ≠ some '=') :
    token '>' cs = .ok (.comparator .greater, cs) := by
  unfold token
  split <;> simp_all

/-- A character that no token starts with. A minus sign is one if no digit follows it. -/
theorem token_of_none {c : Char}
    (hsymbol : c ∉ ['(', ')', ',', '*', '=', '!', '<', '>', '\'', '"'])
    (hdigit : Numeral.isDigit c = false) (hstarts : Text.startsName c = false)
    (hminus : c = '-' → cs.head?.any Numeral.isDigit = false) :
    token c cs = .error .character := by
  have hne : ∀ d ∈ ['(', ')', ',', '*', '=', '!', '<', '>', '\'', '"'], c ≠ d := by
    rintro d hd rfl
    exact hsymbol hd
  unfold token
  split <;> try exact absurd rfl (hne _ (by decide))
  rw [if_neg (by simp [hdigit]), if_neg (fun h => by simp [hminus h.1] at h),
    if_neg (by simp [hstarts])]

theorem Keeps.token_bang (hF : Keeps F) (cs : List Char) :
    token '!' (F cs) = (token '!' cs).map fun r => (r.1, F r.2) := by
  by_cases h : cs.head? = some '='
  · obtain ⟨tail, rfl⟩ := List.head?_eq_some_iff.mp h
    rw [hF.cons '=' (by decide +kernel)]
    rfl
  · rw [token_bang_of_head_ne h, token_bang_of_head_ne (hF.head_ne (by decide +kernel) h)]
    rfl

theorem Keeps.token_less (hF : Keeps F) (cs : List Char) :
    token '<' (F cs) = (token '<' cs).map fun r => (r.1, F r.2) := by
  by_cases hequal : cs.head? = some '='
  · obtain ⟨tail, rfl⟩ := List.head?_eq_some_iff.mp hequal
    rw [hF.cons '=' (by decide +kernel)]
    rfl
  by_cases hgreater : cs.head? = some '>'
  · obtain ⟨tail, rfl⟩ := List.head?_eq_some_iff.mp hgreater
    rw [hF.cons '>' (by decide +kernel)]
    rfl
  rw [token_less_of_head_ne hequal hgreater, token_less_of_head_ne
    (hF.head_ne (by decide +kernel) hequal) (hF.head_ne (by decide +kernel) hgreater)]
  rfl

theorem Keeps.token_greater (hF : Keeps F) (cs : List Char) :
    token '>' (F cs) = (token '>' cs).map fun r => (r.1, F r.2) := by
  by_cases h : cs.head? = some '='
  · obtain ⟨tail, rfl⟩ := List.head?_eq_some_iff.mp h
    rw [hF.cons '=' (by decide +kernel)]
    rfl
  · rw [token_greater_of_head_ne h, token_greater_of_head_ne (hF.head_ne (by decide +kernel) h)]
    rfl

theorem Keeps.token_minus (hF : Keeps F) (cs : List Char) :
    token '-' (F cs) = (token '-' cs).map fun r => (r.1, F r.2) := by
  by_cases h : cs.head?.any Numeral.isDigit = true
  · obtain ⟨d, tail, rfl⟩ : ∃ d tail, cs = d :: tail :=
      List.exists_cons_of_ne_nil (by rintro rfl; cases h)
    have hd : Numeral.isDigit d = true := h
    rw [hF.cons d (goesOn_of_isDigit hd), Lexer.token_minus hd, Lexer.token_minus hd,
      ← hF.cons d (goesOn_of_isDigit hd), hF.number]
  · have hnone {l : List Char} (hl : l.head?.any Numeral.isDigit = false) :
        token '-' l = .error .character :=
      token_of_none (by decide) (by decide) (by decide +kernel) fun _ => hl
    have hkept : (F cs).head?.any Numeral.isDigit = false := by
      rw [Option.any_eq_false]
      intro d hd
      refine Bool.eq_false_iff.mpr fun hdigit => ?_
      refine hF.head_ne (goesOn_of_isDigit hdigit) ?_ hd
      intro hd'
      simp [hd', hdigit] at h
    rw [hnone (Bool.eq_false_iff.mpr h), hnone hkept]
    rfl

theorem Keeps.token (hF : Keeps F) {c : Char} (hsingle : c ≠ '\'') (hdouble : c ≠ '"')
    (cs : List Char) : token c (F cs) = (token c cs).map fun r => (r.1, F r.2) := by
  by_cases hsymbol : c ∈ ['(', ')', ',', '*', '=', '!', '<', '>', '-']
  · simp only [List.mem_cons, List.not_mem_nil, or_false] at hsymbol
    rcases hsymbol with rfl | rfl | rfl | rfl | rfl | rfl | rfl | rfl | rfl
    · rfl
    · rfl
    · rfl
    · rfl
    · rfl
    · exact hF.token_bang cs
    · exact hF.token_less cs
    · exact hF.token_greater cs
    · exact hF.token_minus cs
  cases hdigit : Numeral.isDigit c with
  | true =>
    rw [token_of_isDigit hdigit, token_of_isDigit hdigit, ← hF.cons c (goesOn_of_isDigit hdigit),
      hF.number]
  | false =>
    cases hstarts : Text.startsName c with
    | true =>
      obtain ⟨htake, hdrop⟩ := hF.span (fun _ => goesOn_of_continuesName) cs
      rw [token_of_startsName hstarts, token_of_startsName hstarts, htake, hdrop]
      rfl
    | false =>
      have hother : c ∉ ['(', ')', ',', '*', '=', '!', '<', '>', '\'', '"'] := by
        simp only [List.mem_cons, List.not_mem_nil, or_false] at hsymbol ⊢
        tauto
      have hminus : c ≠ '-' := by
        rintro rfl
        exact hsymbol (by decide)
      rw [token_of_none hother hdigit hstarts fun h => absurd h hminus,
        token_of_none hother hdigit hstarts fun h => absurd h hminus]
      rfl

end Keeps

/-- The second text may follow the first one: it begins with a character that goes on with no token,
and not with the quote that the first one ends with. -/
def Seam (cs rest : List Char) : Prop :=
  ∀ c ∈ rest.head?, goesOn c = false ∧ ((c = '\'' ∨ c = '"') → cs.getLast? ≠ some c)

section Seam

variable {cs as rest after : List Char} {ts : List Token}

theorem seam_of_endsWord (h : EndsWord rest) : Seam cs rest := by
  intro c hc
  rcases h c hc with rfl | rfl <;> exact ⟨by decide +kernel, by simp⟩

theorem Seam.of_suffix (h : Seam cs rest) (hsuffix : as <:+ cs) : Seam as rest := by
  obtain ⟨before, rfl⟩ := hsuffix
  refine fun c hc => ⟨(h c hc).1, fun hquote hlast => (h c hc).2 hquote ?_⟩
  rw [List.getLast?_append, hlast, Option.some_or]

theorem Seam.keeps (h : Seam cs rest) : Keeps (· ++ rest) where
  cons _ _ _ := rfl
  head as has := by
    cases as with
    | nil => exact fun c hc => (h c hc).1
    | cons c as => exact has

theorem quoted_append {q : Char} {make : String → Token} {t : Token}
    (h : quoted q make cs = .ok (t, after)) (hquote : q = '\'' ∨ q = '"')
    (hseam : Seam (q :: cs) rest) : quoted q make (cs ++ rest) = .ok (t, after ++ rest) := by
  unfold quoted at h
  split at h
  · next inside _ hclose =>
    cases h
    obtain ⟨rfl, hhead⟩ := Quoted.close_eq_some_iff.mp hclose
    have hclose' : Quoted.close q (Quoted.double q inside ++ q :: after ++ rest) =
        some (inside, after ++ rest) := by
      refine Quoted.close_eq_some_iff.mpr ⟨by simp, ?_⟩
      cases after with
      | nil =>
        have hlast : (q :: (Quoted.double q inside ++ [q])).getLast? = some q :=
          List.getLast?_concat (l := q :: Quoted.double q inside)
        exact fun hq => (hseam q hq).2 hquote hlast
      | cons c after => exact hhead
    rw [quoted, hclose']
  · cases h

theorem token_append {c : Char} {t : Token} (h : token c cs = .ok (t, after))
    (hseam : Seam (c :: cs) rest) : token c (cs ++ rest) = .ok (t, after ++ rest) := by
  by_cases hsingle : c = '\''
  · subst hsingle
    exact quoted_append h (.inl rfl) hseam
  by_cases hdouble : c = '"'
  · subst hdouble
    exact quoted_append h (.inr rfl) hseam
  rw [hseam.keeps.token hsingle hdouble, h]
  rfl

/-- Texts side by side are cut into the tokens of the first one and those of the second one. -/
theorem tokens_append {total : Nat} (h : tokens total cs = .ok ts) (hseam : Seam cs rest)
    (total' : Nat) : tokens total' (cs ++ rest) = (tokens total' rest).map (ts ++ ·) := by
  induction cs using tokens.induct generalizing ts with
  | case1 =>
    rw [tokens] at h
    cases h
    cases hrest : tokens total' rest <;> simp [hrest, Except.map]
  | case2 c cs hspace ih =>
    rw [tokens, if_pos hspace] at h
    rw [List.cons_append, tokens, if_pos hspace]
    exact ih h (hseam.of_suffix (List.suffix_cons c cs))
  | case3 c cs hspace flaw hflaw =>
    rw [tokens, if_neg hspace] at h
    split at h
    · cases h
    · next hok => cases hflaw.symm.trans hok
  | case4 c cs hspace t after htoken _ ih =>
    have hspace' : isSpace c = false := by simpa using hspace
    rw [tokens_cons hspace' htoken] at h
    obtain ⟨us, hus, rfl⟩ := Except.exists_of_map h
    rw [List.cons_append, tokens_cons hspace' (token_append htoken hseam),
      ih hus (hseam.of_suffix (suffix_of_token htoken))]
    cases tokens total' rest <;> rfl

theorem lexes_of_tokens {total : Nat} (h : tokens total cs = .ok ts) : Lexes cs ts :=
  fun total' _ hrest => tokens_append h (seam_of_endsWord hrest) total'

end Seam

theorem read_eq_ok_iff {s : String} {ts : List Token} :
    read s = .ok ts ↔ tokens (width s.toList) s.toList = .ok ts ∧ ts ≠ [] := by
  unfold read
  split
  · next h => simp [h]
  · next hne =>
    refine ⟨fun h => ⟨h, ?_⟩, fun h => h.1⟩
    rintro rfl
    exact hne h

end Lexer

end Timeslice
