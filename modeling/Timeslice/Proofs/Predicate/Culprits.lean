import Timeslice.Proofs.Predicate.Seams

/-!
# Where a text stops being read

The lexer goes over a text in rounds, each of which takes a blank or a token off its front. A token
that is taken off needs nothing of what stands behind it, so the rounds before a fault go the same
way over the text that ends at the fault. The place in a fault is that end, in bytes, and what stands
there is at fault: a character that starts no token, or a quote that nothing closes.
-/

namespace Timeslice

/-- A quote at the front closes the quoted run behind it: quotes up to there are written twice, and
the closing one is not followed by another. -/
def Quoted.IsClosed (q : Char) (cs : List Char) : Prop :=
  ∃ inside after, cs = double q inside ++ q :: after ∧ after.head? ≠ some q

theorem Quoted.close_eq_none_iff {q : Char} {cs : List Char} :
    close q cs = none ↔ ¬IsClosed q cs := by
  constructor
  · rintro h ⟨inside, after, hcs, hhead⟩
    have hsome : close q cs = some (inside, after) := close_eq_some_iff.mpr ⟨hcs, hhead⟩
    rw [hsome] at h
    cases h
  · intro h
    rw [Option.eq_none_iff_forall_ne_some]
    intro r hr
    exact h ⟨r.1, r.2, close_eq_some_iff.mp hr⟩

namespace Lexer

/-- So many rounds take the tokens off the front of a text, and leave its rest. -/
inductive Cuts : Nat → List Char → List Token → List Char → Prop where
  | done (cs : List Char) : Cuts 0 cs [] cs
  | blank {n : Nat} {c : Char} {cs rest : List Char} {ts : List Token}
      (space : isSpace c = true) (later : Cuts n cs ts rest) : Cuts (n + 1) (c :: cs) ts rest
  | token {n : Nat} {c : Char} {cs after rest : List Char} {t : Token} {ts : List Token}
      (ink : isSpace c = false) (first : token c cs = .ok (t, after))
      (later : Cuts n after ts rest) : Cuts (n + 1) (c :: cs) (t :: ts) rest

variable {n total position : Nat} {c : Char} {cs after rest : List Char} {t : Token}
  {ts : List Token} {flaw : Flaw} {fault : SyntaxFault}

theorem Cuts.suffix (h : Cuts n cs ts rest) : rest <:+ cs := by
  induction h with
  | done cs => exact List.suffix_refl cs
  | blank _ _ ih => exact ih.trans (List.suffix_cons _ _)
  | token _ first _ ih => exact ih.trans (suffix_of_token first)

theorem Cuts.rounds_le (h : Cuts n cs ts rest) : n + rest.length ≤ cs.length := by
  induction h with
  | done cs => simp
  | blank _ _ ih =>
    rw [List.length_cons]
    omega
  | token _ first _ ih =>
    have := length_token_le first
    rw [List.length_cons]
    dsimp only at this
    omega

theorem tokens_eq_ok_iff : tokens total cs = .ok ts ↔ ∃ n, Cuts n cs ts [] := by
  constructor
  · intro h
    induction cs using tokens.induct generalizing ts with
    | case1 =>
      rw [tokens] at h
      cases h
      exact ⟨0, .done []⟩
    | case2 c cs hspace ih =>
      rw [tokens, if_pos hspace] at h
      obtain ⟨n, hn⟩ := ih h
      exact ⟨n + 1, .blank hspace hn⟩
    | case3 c cs hspace flaw hflaw =>
      rw [tokens_flaw (by simpa using hspace) hflaw] at h
      cases h
    | case4 c cs hspace t after htoken _ ih =>
      have hink : isSpace c = false := by simpa using hspace
      rw [tokens_cons hink htoken] at h
      obtain ⟨us, hus, rfl⟩ := Except.exists_of_map h
      obtain ⟨n, hn⟩ := ih hus
      exact ⟨n + 1, .token hink htoken hn⟩
  · rintro ⟨n, h⟩
    generalize hnil : ([] : List Char) = rest at h
    induction h with
    | done cs => rw [← hnil, tokens]
    | blank space _ ih => rw [tokens, if_pos space, ih hnil]
    | token ink first _ ih =>
      rw [tokens_cons ink first, ih hnil]
      rfl

/-- The lexer fails where the rounds come to a flaw. -/
theorem exists_cuts_of_error (h : tokens total cs = .error fault) :
    ∃ n ts c rest flaw, Cuts n cs ts (c :: rest) ∧ token c rest = .error flaw ∧
      fault = flaw.toFault c (total - width (c :: rest)) := by
  induction cs using tokens.induct with
  | case1 =>
    rw [tokens] at h
    cases h
  | case2 c cs hspace ih =>
    rw [tokens, if_pos hspace] at h
    obtain ⟨n, ts, d, rest, flaw, hcuts, hflaw⟩ := ih h
    exact ⟨n + 1, ts, d, rest, flaw, .blank hspace hcuts, hflaw⟩
  | case3 c cs hspace flaw hflaw =>
    rw [tokens_flaw (by simpa using hspace) hflaw] at h
    cases h
    exact ⟨0, [], c, cs, flaw, .done _, hflaw, rfl⟩
  | case4 c cs hspace t after htoken _ ih =>
    have hink : isSpace c = false := by simpa using hspace
    rw [tokens_cons hink htoken] at h
    obtain ⟨n, ts, d, rest, flaw, hcuts, hflaw⟩ := ih (Except.eq_error_of_map h)
    exact ⟨n + 1, t :: ts, d, rest, flaw, .token hink htoken hcuts, hflaw⟩

section Truncation

theorem head?_ne_of_append {d : Char} (h : (cs ++ rest).head? ≠ some d) : cs.head? ≠ some d := by
  intro hcs
  rw [List.head?_append, hcs, Option.some_or] at h
  exact h rfl

theorem span_of_append {p : Char → Bool} (h : (cs ++ rest).dropWhile p = after ++ rest) :
    (cs ++ rest).takeWhile p = cs.takeWhile p ∧ cs.dropWhile p = after := by
  induction cs with
  | nil =>
    rw [List.nil_append] at h ⊢
    have hlength := (List.dropWhile_suffix p (l := rest)).length_le
    rw [h, List.length_append] at hlength
    obtain rfl : after = [] := List.length_eq_zero_iff.mp (by omega)
    have hsplit := List.takeWhile_append_dropWhile (p := p) (l := rest)
    rw [h, List.nil_append] at hsplit
    exact ⟨List.append_left_eq_self.mp hsplit, rfl⟩
  | cons c cs ih =>
    by_cases hc : p c = true
    · rw [List.cons_append, List.dropWhile_cons_of_pos hc] at h
      obtain ⟨htake, hdrop⟩ := ih h
      rw [List.cons_append, List.takeWhile_cons_of_pos hc, List.takeWhile_cons_of_pos hc,
        List.dropWhile_cons_of_pos hc, htake]
      exact ⟨rfl, hdrop⟩
    · rw [List.cons_append, List.dropWhile_cons_of_neg hc, ← List.cons_append] at h
      rw [List.cons_append, List.takeWhile_cons_of_neg hc, List.takeWhile_cons_of_neg hc,
        List.dropWhile_cons_of_neg hc]
      exact ⟨rfl, List.append_cancel_right h⟩

theorem number_of_append {negative : Bool}
    (h : number negative (cs ++ rest) = .ok (t, after ++ rest)) :
    number negative cs = .ok (t, after) := by
  by_cases hpoint : ((cs ++ rest).dropWhile Numeral.isDigit).head? = some '.'
  · obtain ⟨tail, htail⟩ := List.head?_eq_some_iff.mp hpoint
    simp only [number, htail, Except.ok.injEq, Prod.mk.injEq] at h
    obtain ⟨hplaces, hafter⟩ := h
    have hrest : tail = (tail.takeWhile Numeral.isDigit ++ after) ++ rest := by
      rw [List.append_assoc, ← hafter, List.takeWhile_append_dropWhile]
    generalize tail.takeWhile Numeral.isDigit ++ after = middle at hrest
    subst hrest
    have hpoint' : (cs ++ rest).dropWhile Numeral.isDigit = '.' :: middle ++ rest := htail
    obtain ⟨hwhole, hdrop⟩ := span_of_append hpoint'
    obtain ⟨hdigits, hend⟩ := span_of_append hafter
    rw [hwhole, hdigits] at hplaces
    simp only [number, hdrop, hplaces, hend]
  · rw [number_of_head_ne hpoint] at h
    split at h
    · next v hv =>
      simp only [Except.ok.injEq, Prod.mk.injEq] at h
      obtain ⟨rfl, hafter⟩ := h
      obtain ⟨hwhole, hdrop⟩ := span_of_append hafter
      rw [hafter] at hpoint
      rw [number_of_head_ne (hdrop ▸ head?_ne_of_append hpoint), ← hwhole, hv, hdrop]
    · cases h

theorem token_symbol_of_append {d : Char} {u : Token}
    (hu : ∀ tail, token c (d :: tail) = .ok (u, tail)) (hhead : (cs ++ rest).head? = some d)
    (h : token c (cs ++ rest) = .ok (t, after ++ rest)) : token c cs = .ok (t, after) := by
  obtain ⟨tail, htail⟩ := List.head?_eq_some_iff.mp hhead
  rw [htail, hu] at h
  cases h
  have hcs : cs = d :: after := List.append_cancel_right htail
  rw [hcs, hu]

theorem token_bang_of_append (h : token '!' (cs ++ rest) = .ok (t, after ++ rest)) :
    token '!' cs = .ok (t, after) := by
  by_cases hequal : (cs ++ rest).head? = some '='
  · exact token_symbol_of_append (fun _ => rfl) hequal h
  · rw [token_bang_of_head_ne hequal] at h
    cases h

theorem token_less_of_append (h : token '<' (cs ++ rest) = .ok (t, after ++ rest)) :
    token '<' cs = .ok (t, after) := by
  by_cases hequal : (cs ++ rest).head? = some '='
  · exact token_symbol_of_append (fun _ => rfl) hequal h
  by_cases hgreater : (cs ++ rest).head? = some '>'
  · exact token_symbol_of_append (fun _ => rfl) hgreater h
  rw [token_less_of_head_ne hequal hgreater, Except.ok.injEq, Prod.mk.injEq] at h
  rw [token_less_of_head_ne (head?_ne_of_append hequal) (head?_ne_of_append hgreater), h.1,
    List.append_cancel_right h.2]

theorem token_greater_of_append (h : token '>' (cs ++ rest) = .ok (t, after ++ rest)) :
    token '>' cs = .ok (t, after) := by
  by_cases hequal : (cs ++ rest).head? = some '='
  · exact token_symbol_of_append (fun _ => rfl) hequal h
  rw [token_greater_of_head_ne hequal, Except.ok.injEq, Prod.mk.injEq] at h
  rw [token_greater_of_head_ne (head?_ne_of_append hequal), h.1, List.append_cancel_right h.2]

theorem token_minus_of_append (h : token '-' (cs ++ rest) = .ok (t, after ++ rest)) :
    token '-' cs = .ok (t, after) := by
  by_cases hdigit : (cs ++ rest).head?.any Numeral.isDigit = true
  · obtain ⟨d, tail, htail⟩ : ∃ d tail, cs ++ rest = d :: tail :=
      List.exists_cons_of_ne_nil (by intro hnil; rw [hnil] at hdigit; cases hdigit)
    have hd : Numeral.isDigit d = true := by simpa [htail] using hdigit
    rw [htail, token_minus hd, ← htail] at h
    have hlength := length_number_lt hd (htail ▸ h)
    have hwhole := congrArg List.length htail
    simp only [List.length_append, List.length_cons] at hlength hwhole
    obtain ⟨e, body, rfl⟩ : ∃ e body, cs = e :: body :=
      List.exists_cons_of_ne_nil (by rintro rfl; simp at hwhole; omega)
    obtain ⟨rfl, -⟩ := List.cons.inj htail
    rw [token_minus hd]
    exact number_of_append h
  · have hnone : token '-' (cs ++ rest) = .error .character :=
      token_of_none (by decide) (by decide) (by decide +kernel) fun _ => by simpa using hdigit
    rw [hnone] at h
    cases h

theorem quoted_of_append {q : Char} {make : String → Token}
    (h : quoted q make (cs ++ rest) = .ok (t, after ++ rest)) : quoted q make cs = .ok (t, after) := by
  unfold quoted at h
  split at h
  · next inside left hclose =>
    simp only [Except.ok.injEq, Prod.mk.injEq] at h
    obtain ⟨rfl, rfl⟩ := h
    obtain ⟨hcs, hhead⟩ := Quoted.close_eq_some_iff.mp hclose
    have hshort : cs = Quoted.double q inside ++ q :: after :=
      List.append_cancel_right (by simpa using hcs)
    have hclose' : Quoted.close q cs = some (inside, after) :=
      Quoted.close_eq_some_iff.mpr ⟨hshort, head?_ne_of_append hhead⟩
    rw [quoted, hclose']
  · cases h

/-- A token is the same without a rest that it leaves. -/
theorem token_of_append (h : token c (cs ++ rest) = .ok (t, after ++ rest)) :
    token c cs = .ok (t, after) := by
  have hsingle {u : Token} (hu : ∀ as, token c as = .ok (u, as)) : token c cs = .ok (t, after) := by
    rw [hu, Except.ok.injEq, Prod.mk.injEq] at h
    rw [hu, h.1, List.append_cancel_right h.2]
  by_cases hsymbol : c ∈ ['(', ')', ',', '*', '=', '!', '<', '>', '\'', '"', '-']
  · simp only [List.mem_cons, List.not_mem_nil, or_false] at hsymbol
    rcases hsymbol with rfl | rfl | rfl | rfl | rfl | rfl | rfl | rfl | rfl | rfl | rfl
    · exact hsingle fun _ => rfl
    · exact hsingle fun _ => rfl
    · exact hsingle fun _ => rfl
    · exact hsingle fun _ => rfl
    · exact hsingle fun _ => rfl
    · exact token_bang_of_append h
    · exact token_less_of_append h
    · exact token_greater_of_append h
    · exact quoted_of_append h
    · exact quoted_of_append h
    · exact token_minus_of_append h
  cases hdigit : Numeral.isDigit c with
  | true =>
    rw [token_of_isDigit hdigit, ← List.cons_append] at h
    rw [token_of_isDigit hdigit]
    exact number_of_append h
  | false =>
    cases hstarts : Text.startsName c with
    | true =>
      rw [token_of_startsName hstarts, Except.ok.injEq, Prod.mk.injEq] at h
      obtain ⟨htake, hdrop⟩ := span_of_append h.2
      rw [token_of_startsName hstarts, ← h.1, htake, hdrop]
    | false =>
      have hother : c ∉ ['(', ')', ',', '*', '=', '!', '<', '>', '\'', '"'] := fun hmem =>
        hsymbol (by simp only [List.mem_cons, List.not_mem_nil, or_false] at hmem ⊢; tauto)
      have hminus : c ≠ '-' := by
        rintro rfl
        exact hsymbol (by decide)
      rw [token_of_none hother hdigit hstarts fun h => absurd h hminus] at h
      cases h

/-- The rounds go the same way over the text without the rest that they leave. -/
theorem Cuts.of_append (h : Cuts n (cs ++ rest) ts rest) : Cuts n cs ts [] := by
  generalize hwhole : cs ++ rest = whole at h
  induction h generalizing cs with
  | done rest =>
    rw [List.append_left_eq_self.mp hwhole]
    exact .done []
  | @blank n c tail rest ts space later ih =>
    obtain ⟨before, rfl⟩ := later.suffix
    obtain rfl : cs = c :: before := List.append_cancel_right (by simpa using hwhole)
    exact .blank space (ih rfl)
  | @token n c tail after rest t ts ink first later ih =>
    obtain ⟨before, rfl⟩ := later.suffix
    have hlength := length_token_le first
    obtain ⟨d, body, rfl⟩ : ∃ d body, cs = d :: body := by
      refine List.exists_cons_of_ne_nil ?_
      rintro rfl
      have := congrArg List.length hwhole
      simp only [List.length_append, List.length_cons, List.length_nil] at hlength this
      omega
    obtain ⟨rfl, rfl⟩ := List.cons.inj hwhole
    exact .token ink (token_of_append first) (ih rfl)

end Truncation

theorem token_eq_quote (h : token c cs = .error .quote) :
    (c = '\'' ∨ c = '"') ∧ ¬Quoted.IsClosed c cs := by
  have hquoted {q : Char} {make : String → Token} (h : quoted q make cs = .error .quote) :
      ¬Quoted.IsClosed q cs := by
    refine Quoted.close_eq_none_iff.mp ?_
    unfold quoted at h
    split at h
    · cases h
    · assumption
  have hnumber {negative : Bool} {as : List Char} : number negative as ≠ .error .quote := by
    unfold number
    split
    · nofun
    · dsimp only
      split <;> nofun
  unfold token at h
  split at h <;> try cases h
  · exact ⟨.inl rfl, hquoted h⟩
  · exact ⟨.inr rfl, hquoted h⟩
  · split_ifs at h
    · exact absurd h hnumber
    · exact absurd h hnumber
    · cases h

/-- The tokens of a whole text, of which there may be none. -/
def cut (s : String) : Except SyntaxFault (List Token) :=
  tokens (width s.toList) s.toList

theorem width_append (cs rest : List Char) : width (cs ++ rest) = width cs + width rest := by
  induction cs with
  | nil => rw [List.nil_append, width, Nat.zero_add]
  | cons c cs ih => rw [List.cons_append, width, width, ih, Nat.add_assoc]

theorem utf8ByteSize_ofList (cs : List Char) : (String.ofList cs).utf8ByteSize = width cs := by
  induction cs with
  | nil => rfl
  | cons c cs ih =>
    have hcons : String.ofList (c :: cs) = String.singleton c ++ String.ofList cs := by
      rw [← String.toList_inj]
      simp
    rw [hcons, String.utf8ByteSize_append, String.utf8ByteSize_singleton, ih, width]

/-- A character stands at this byte of a text, behind characters that can be cut into tokens. -/
structure CulpritAt (s : String) (position : Nat) (c : Char) (before after : String) : Prop where
  text : s = before ++ String.singleton c ++ after
  position : before.utf8ByteSize = position
  tokens : ∃ ts, cut before = .ok ts

theorem exists_culprit {s : String} (h : cut s = .error fault) :
    ∃ position c before after flaw, CulpritAt s position c before after ∧
      token c after.toList = .error flaw ∧ fault = flaw.toFault c position := by
  obtain ⟨n, ts, c, rest, flaw, hcuts, hflaw, hfault⟩ := exists_cuts_of_error h
  obtain ⟨before, hbefore⟩ := hcuts.suffix
  have htotal : width s.toList - width (c :: rest) = width before := by
    rw [← hbefore, width_append, Nat.add_sub_cancel]
  have htokens : cut (String.ofList before) = .ok ts := by
    rw [cut, String.toList_ofList]
    exact tokens_eq_ok_iff.mpr ⟨n, Cuts.of_append (hbefore ▸ hcuts)⟩
  refine ⟨width before, c, String.ofList before, String.ofList rest, flaw,
    ⟨?_, utf8ByteSize_ofList before, ts, htokens⟩, by rwa [String.toList_ofList], htotal ▸ hfault⟩
  rw [← String.toList_inj, ← hbefore]
  simp

/-- How the rounds of the lexer over a text end, and what its faults say of the text. -/
structure Culprits (s : String) : Prop where
  rounds_le : ∀ n ts rest, Cuts n s.toList ts rest → n ≤ s.toList.length
  ends : ∃ n ts rest, Cuts n s.toList ts rest ∧
    (rest = [] ∧ cut s = .ok ts ∨ ∃ c tail flaw, rest = c :: tail ∧ token c tail = .error flaw ∧
      cut s = .error (flaw.toFault c (width s.toList - width rest)))
  /-- A text that is read for its tokens is refused for the same faults, or has no tokens. -/
  read_error : ∀ fault, fault ≠ .empty → (read s = .error fault ↔ cut s = .error fault)
  unexpected : ∀ c position, cut s = .error (.unexpectedCharacter c position) →
    ∃ before after, CulpritAt s position c before after
  unterminated : ∀ position, cut s = .error (.unterminatedQuote position) →
    ∃ q before after, (q = '\'' ∨ q = '"') ∧ CulpritAt s position q before after ∧
      ¬Quoted.IsClosed q after.toList

theorem culprits (s : String) : Culprits s where
  rounds_le n ts rest h := by
    have := h.rounds_le
    omega
  ends := by
    cases hcut : cut s with
    | ok ts =>
      obtain ⟨n, hcuts⟩ := tokens_eq_ok_iff.mp hcut
      exact ⟨n, ts, [], hcuts, .inl ⟨rfl, rfl⟩⟩
    | error fault =>
      obtain ⟨n, ts, c, tail, flaw, hcuts, hflaw, rfl⟩ := exists_cuts_of_error hcut
      exact ⟨n, ts, c :: tail, hcuts, .inr ⟨c, tail, flaw, rfl, hflaw, rfl⟩⟩
  read_error fault hfault := by
    unfold read cut
    split
    · next hempty => simp [hempty, hfault.symm]
    · rfl
  unexpected c position h := by
    obtain ⟨position', c', before, after, flaw, hculprit, -, hfault⟩ := exists_culprit h
    cases flaw <;> cases hfault
    exact ⟨before, after, hculprit⟩
  unterminated position h := by
    obtain ⟨position', q, before, after, flaw, hculprit, hflaw, hfault⟩ := exists_culprit h
    cases flaw <;> cases hfault
    obtain ⟨hquote, hopen⟩ := token_eq_quote hflaw
    exact ⟨q, before, after, hquote, hculprit, hopen⟩

example : cut "load = 1²" = .error (.unexpectedCharacter '²' 8) := by decide +kernel

end Lexer

end Timeslice
