import Timeslice.Proofs.Predicate.Lexing

/-!
# Names in a text

A name that is read from a text is plain, or it stands in quotes in the text.
-/

namespace Timeslice

namespace Quoted

theorem eq_of_close {q : Char} {cs : List Char} {r : List Char × List Char}
    (h : close q cs = some r) : cs = double q r.1 ++ q :: r.2 := by
  induction cs using close.induct (q := q) generalizing r with
  | case1 => simp [close] at h
  | case2 =>
    simp only [close, if_true, Option.some.injEq] at h
    subst h
    rfl
  | case3 c hc => simp [close, hc] at h
  | case4 rest ih =>
    simp only [close, if_true, Option.map_eq_some_iff] at h
    obtain ⟨s, hs, rfl⟩ := h
    rw [ih hs]
    simp [double]
  | case5 d rest hd =>
    simp only [close, if_true, hd, if_false, Option.some.injEq] at h
    subst h
    rfl
  | case6 c d rest hc ih =>
    simp only [close, hc, if_false, Option.map_eq_some_iff] at h
    obtain ⟨s, hs, rfl⟩ := h
    rw [ih hs]
    simp [double, hc]

end Quoted

namespace Lexer

theorem suffix_of_number {negative : Bool} {cs : List Char} {r : Token × List Char}
    (h : number negative cs = .ok r) : r.2 <:+ cs := by
  have hdrop (l : List Char) : l.dropWhile Numeral.isDigit <:+ l := List.dropWhile_suffix _
  simp only [number] at h
  split at h
  · next rest hrest =>
    cases h
    exact (hdrop rest).trans ((List.suffix_cons '.' rest).trans (hrest ▸ hdrop cs))
  · split at h
    · cases h
      exact hdrop cs
    · cases h

theorem number_ne_name {negative : Bool} {cs after : List Char} {s : String}
    (h : number negative cs = .ok (.name s, after)) : False := by
  simp only [number] at h
  split at h
  · simp at h
  · split at h <;> simp at h

theorem quoted_eq_ok {q : Char} {make : String → Token} {rest : List Char}
    {r : Token × List Char} (h : quoted q make rest = .ok r) :
    ∃ cs, r.1 = make (String.ofList cs) ∧ q :: rest = Quoted.enclose q cs ++ r.2 := by
  unfold quoted at h
  split at h
  · next cs after hclose =>
    cases h
    refine ⟨cs, rfl, ?_⟩
    rw [Quoted.eq_of_close hclose]
    simp [Quoted.enclose]
  · cases h

theorem suffix_of_quoted {q : Char} {make : String → Token} {rest : List Char}
    {r : Token × List Char} (h : quoted q make rest = .ok r) : r.2 <:+ rest := by
  obtain ⟨cs, _, hrest⟩ := quoted_eq_ok h
  refine ⟨Quoted.double q cs ++ [q], ?_⟩
  simpa [Quoted.enclose] using (List.cons.inj hrest).2.symm

theorem suffix_of_token {c : Char} {rest : List Char} {r : Token × List Char}
    (h : token c rest = .ok r) : r.2 <:+ c :: rest := by
  have hcons {cs : List Char} (hcs : cs <:+ rest) : cs <:+ c :: rest :=
    hcs.trans (List.suffix_cons c rest)
  unfold token at h
  split at h <;>
    try (cases h; first | exact List.suffix_cons _ _ | exact hcons (List.suffix_cons _ _))
  · exact hcons (suffix_of_quoted h)
  · exact hcons (suffix_of_quoted h)
  · split at h
    · exact suffix_of_number h
    · split at h
      · exact hcons (suffix_of_number h)
      · split at h
        · cases h
          exact hcons (List.dropWhile_suffix _)
        · cases h

/-- A name token has a plain name, or its name is quoted where the token starts. -/
theorem token_eq_name {c : Char} {rest after : List Char} {s : String}
    (h : token c rest = .ok (.name s, after)) :
    Predicate.isPlainName s.toList = true ∨ Quoted.enclose '"' s.toList <+: c :: rest := by
  unfold token at h
  split at h <;> try (cases h)
  · obtain ⟨cs, hs, -⟩ := quoted_eq_ok h
    exact Token.noConfusion hs
  · obtain ⟨cs, hs, hrest⟩ := quoted_eq_ok h
    rw [Token.name.injEq] at hs
    rw [hs, String.toList_ofList, hrest]
    exact .inr (List.prefix_append _ _)
  · split at h
    · exact (number_ne_name h).elim
    · split at h
      · exact (number_ne_name h).elim
      · split at h
        · next hstarts =>
          simp only [Except.ok.injEq, Prod.mk.injEq, Token.name.injEq] at h
          rw [← h.1, String.toList_ofList, Predicate.isPlainName, hstarts, Bool.true_and]
          exact .inl List.all_takeWhile
        · simp at h

theorem name_of_tokens {total : Nat} {cs : List Char} {ts : List Token}
    (h : tokens total cs = .ok ts) {s : String} (hs : Token.name s ∈ ts) :
    Predicate.isPlainName s.toList = true ∨ Quoted.enclose '"' s.toList <:+: cs := by
  induction cs using tokens.induct generalizing ts with
  | case1 =>
    rw [tokens] at h
    cases h
    cases hs
  | case2 c rest hspace ih =>
    rw [tokens, if_pos hspace] at h
    exact (ih h hs).imp_right fun hin => hin.trans (List.suffix_cons c rest).isInfix
  | case3 c rest hspace flaw hflaw =>
    rw [tokens, if_neg hspace] at h
    split at h
    · cases h
    · next hok => rw [hflaw] at hok; cases hok
  | case4 c rest hspace t after htoken _ ih =>
    rw [tokens_cons (by simpa using hspace) htoken] at h
    cases hafter : tokens total after with
    | error f => rw [hafter] at h; cases h
    | ok us =>
      rw [hafter] at h
      cases h
      rcases List.mem_cons.mp hs with rfl | hs
      · exact (token_eq_name htoken).imp_right List.IsPrefix.isInfix
      · exact (ih hafter hs).imp_right fun hin => hin.trans (suffix_of_token htoken).isInfix

theorem name_of_read {text : String} {ts : List Token} (h : read text = .ok ts) {s : String}
    (hs : Token.name s ∈ ts) :
    Predicate.isPlainName s.toList = true ∨ Quoted.enclose '"' s.toList <:+: text.toList := by
  unfold read at h
  split at h
  · cases h
  · exact name_of_tokens h hs

end Lexer

end Timeslice
