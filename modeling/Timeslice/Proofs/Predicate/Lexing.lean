import Timeslice.Predicate.Parser
import Timeslice.Proofs.Number.DecimalText

/-!
# Lexing what is printed

A run of characters lexes to given tokens if it does so before every end of a word. The printed
forms of names, literals and comparators lex to one token each, and runs may be put side by side.
-/

namespace Timeslice.Text

def blanks : List Char :=
  ['\t', '\n', '\x0b', '\x0c', '\r', ' ', '\u0085', '\u00a0', '\u1680', '\u2000', '\u2001',
    '\u2002', '\u2003', '\u2004', '\u2005', '\u2006', '\u2007', '\u2008', '\u2009', '\u200a',
    '\u2028', '\u2029', '\u202f', '\u205f', '\u3000']

theorem mem_blanks_of_isBlank {c : Char} (h : isBlank c = true) : c ∈ blanks := by
  have hval : c.val ∈ blanks.map Char.val := by
    simp only [isBlank, Bool.or_eq_true, Bool.and_eq_true, decide_eq_true_eq, beq_iff_eq,
      UInt32.le_iff_toNat_le, ← UInt32.toNat_inj] at h
    simp only [blanks, List.map_cons, List.map_nil, List.mem_cons, List.not_mem_nil, or_false,
      ← UInt32.toNat_inj]
    generalize c.val.toNat = n at h ⊢
    revert h
    simp
    omega
  obtain ⟨d, hd, hval⟩ := List.mem_map.mp hval
  rwa [← Char.ext hval]

theorem forall_eq_false {p : Char → Bool} {cs : List Char} (h : cs.all (fun c => !p c) = true) :
    ∀ c ∈ cs, p c = false :=
  fun c hc => Bool.not_eq_true' _ ▸ List.all_eq_true.mp h c hc

theorem isBlank_of_startsName {c : Char} (h : startsName c = true) : isBlank c = false := by
  have hblanks : ∀ d ∈ blanks, startsName d = false := forall_eq_false (by decide +kernel)
  by_contra hb
  have := hblanks c (mem_blanks_of_isBlank (by simpa using hb))
  simp [h] at this

end Timeslice.Text

namespace Timeslice

/-- What may come after a printed word: nothing, a space or a closing parenthesis. -/
def EndsWord (rest : List Char) : Prop :=
  ∀ c ∈ rest.head?, c = ' ' ∨ c = ')'

theorem endsWord_nil : EndsWord [] := by simp [EndsWord]

theorem endsWord_space (cs : List Char) : EndsWord (' ' :: cs) := by simp [EndsWord]

theorem endsWord_closeParen (cs : List Char) : EndsWord (')' :: cs) := by simp [EndsWord]

theorem EndsWord.head_ne {rest : List Char} (h : EndsWord rest) {c : Char} (hspace : c ≠ ' ')
    (hparen : c ≠ ')') : rest.head? ≠ some c := by
  intro hc
  rcases h c hc with rfl | rfl
  · exact hspace rfl
  · exact hparen rfl

/-- The longest run of a class that holds of neither end of a word stops at the end of the word. -/
theorem EndsWord.span {rest : List Char} (h : EndsWord rest) {p : Char → Bool} {cs : List Char}
    (hcs : ∀ c ∈ cs, p c = true) (hspace : p ' ' = false) (hparen : p ')' = false) :
    (cs ++ rest).takeWhile p = cs ∧ (cs ++ rest).dropWhile p = rest := by
  have hrest : rest.takeWhile p = [] ∧ rest.dropWhile p = rest := by
    cases rest with
    | nil => exact ⟨rfl, rfl⟩
    | cons c tail =>
      have hc : p c = false := by
        rcases h c rfl with rfl | rfl
        · exact hspace
        · exact hparen
      simp [hc]
  rw [List.takeWhile_append_of_pos hcs, List.dropWhile_append_of_pos hcs, hrest.1, hrest.2,
    List.append_nil]
  exact ⟨rfl, rfl⟩

namespace Lexer

theorem tokens_cons {total : Nat} {c : Char} {rest after : List Char} {t : Token}
    (hspace : isSpace c = false) (h : token c rest = .ok (t, after)) :
    tokens total (c :: rest) = (tokens total after).map (t :: ·) := by
  rw [tokens, if_neg (by simp [hspace])]
  split
  · next hflaw => rw [h] at hflaw; cases hflaw
  · next hok => rw [h] at hok; cases hok; rfl

theorem tokens_flaw {total : Nat} {c : Char} {rest : List Char} {flaw : Flaw}
    (hspace : isSpace c = false) (h : token c rest = .error flaw) :
    tokens total (c :: rest) = .error (flaw.toFault c (total - width (c :: rest))) := by
  rw [tokens, if_neg (by simp [hspace])]
  split
  · next hflaw => rw [h] at hflaw; cases hflaw; rfl
  · next hok => rw [h] at hok; cases hok

theorem tokens_space (total : Nat) (rest : List Char) :
    tokens total (' ' :: rest) = tokens total rest := by
  rw [tokens, if_pos (by decide)]

/-- The characters lex to the tokens before every end of a word. -/
def Lexes (cs : List Char) (ts : List Token) : Prop :=
  ∀ total rest, EndsWord rest → tokens total (cs ++ rest) = (tokens total rest).map (ts ++ ·)

theorem lexes_of_token {c : Char} {cs : List Char} {t : Token} (hspace : isSpace c = false)
    (h : ∀ rest, EndsWord rest → token c (cs ++ rest) = .ok (t, rest)) : Lexes (c :: cs) [t] := by
  intro total rest hrest
  rw [List.cons_append, tokens_cons hspace (h rest hrest)]
  rfl

theorem Lexes.append_space {as bs : List Char} {ts us : List Token} (ha : Lexes as ts)
    (hb : Lexes bs us) : Lexes (as ++ ' ' :: bs) (ts ++ us) := by
  intro total rest hrest
  rw [List.append_assoc, List.cons_append, ha total _ (endsWord_space _), tokens_space,
    hb total rest hrest]
  cases tokens total rest with
  | error f => rfl
  | ok rs => simp [Except.map]

theorem Lexes.parenthesized {cs : List Char} {ts : List Token} (h : Lexes cs ts) :
    Lexes (Predicate.parenthesized cs) (.openParen :: (ts ++ [.closeParen])) := by
  intro total rest hrest
  have hopen : token '(' (cs ++ ')' :: rest) = .ok (.openParen, cs ++ ')' :: rest) := rfl
  have hclose : token ')' rest = .ok (.closeParen, rest) := rfl
  rw [Predicate.parenthesized, List.cons_append, List.append_assoc, List.cons_append,
    List.nil_append, tokens_cons (by decide) hopen, h total _ (endsWord_closeParen rest),
    tokens_cons (by decide) hclose]
  cases tokens total rest with
  | error f => rfl
  | ok rs => simp [Except.map]

theorem Lexes.read {cs : List Char} {ts : List Token} (h : Lexes cs ts) (hne : ts ≠ []) :
    Lexer.read (String.ofList cs) = .ok ts := by
  have htokens := h (width cs) [] endsWord_nil
  rw [List.append_nil] at htokens
  rw [Lexer.read, String.toList_ofList, htokens, tokens]
  cases ts with
  | nil => exact absurd rfl hne
  | cons t ts => simp [Except.map]

theorem not_startsName_of_mem {c : Char}
    (h : c ∈ ['(', ')', ',', '*', '=', '!', '<', '>', '\'', '"', '-', ';']) :
    Text.startsName c = false := by
  have hall : ∀ d ∈ ['(', ')', ',', '*', '=', '!', '<', '>', '\'', '"', '-', ';'],
      Text.startsName d = false := Text.forall_eq_false (by decide +kernel)
  exact hall c h

theorem isDigit_of_startsName {c : Char} (h : Text.startsName c = true) :
    Numeral.isDigit c = false := by
  by_contra hd
  obtain ⟨hlow, hhigh⟩ : 48 ≤ c.val.toNat ∧ c.val.toNat ≤ 57 := by
    simpa [Numeral.isDigit, Char.isDigit, UInt32.le_iff_toNat_le] using hd
  have hne : c ≠ '_' := by
    rintro rfl
    exact absurd hhigh (by decide)
  rw [Char.toNat_val] at hlow hhigh
  have hlt : c.toNat < 0x80 := by omega
  rw [Text.startsName, Text.isLetter, if_pos hlt] at h
  have hletter : (decide (c.val ≥ 'A'.val ∧ c.val ≤ 'Z'.val) ||
      c.val ≥ 'a'.val && c.val ≤ 'z'.val || c == '_') = true := h
  simp [UInt32.le_iff_toNat_le, hne] at hletter
  omega

theorem isSpace_of_startsName {c : Char} (h : Text.startsName c = true) : isSpace c = false := by
  have hne : c ≠ ';' := by
    rintro rfl
    exact absurd h (by decide +kernel)
  simp [isSpace, Text.isBlank_of_startsName h, hne]

theorem token_of_startsName {c : Char} (h : Text.startsName c = true) (rest : List Char) :
    token c rest = .ok (.name (String.ofList (c :: rest.takeWhile Text.continuesName)),
      rest.dropWhile Text.continuesName) := by
  have hne : ∀ d ∈ ['(', ')', ',', '*', '=', '!', '<', '>', '\'', '"', '-', ';'], c ≠ d := by
    rintro d hd rfl
    simp [not_startsName_of_mem hd] at h
  have hminus := hne '-' (by decide)
  unfold token
  split <;> try exact absurd rfl (hne _ (by decide))
  rw [if_neg (by simp [isDigit_of_startsName h]), if_neg (fun h => hminus h.1), if_pos h]

theorem lexes_plain {cs : List Char} (h : Predicate.isPlainName cs = true) :
    Lexes cs [.name (String.ofList cs)] := by
  cases cs with
  | nil => simp [Predicate.isPlainName] at h
  | cons c cs =>
    simp only [Predicate.isPlainName, Bool.and_eq_true, List.all_eq_true] at h
    refine lexes_of_token (isSpace_of_startsName h.1) fun rest hrest => ?_
    obtain ⟨htake, hdrop⟩ := hrest.span h.2 (by decide +kernel) (by decide +kernel)
    rw [token_of_startsName h.1, htake, hdrop]

theorem quoted_enclosed (q : Char) (make : String → Token) (cs : List Char) {rest : List Char}
    (h : rest.head? ≠ some q) :
    quoted q make (Quoted.double q cs ++ [q] ++ rest) = .ok (make (String.ofList cs), rest) := by
  rw [quoted, List.append_assoc, List.singleton_append, Quoted.close_enclose q cs rest h]

theorem lexes_quoted_name (cs : List Char) :
    Lexes (Quoted.enclose '"' cs) [.name (String.ofList cs)] :=
  lexes_of_token (by decide) fun _ hrest =>
    quoted_enclosed '"' .name cs (hrest.head_ne (by decide) (by decide))

theorem lexes_quoted_text (cs : List Char) :
    Lexes (Quoted.enclose '\'' cs) [.text (String.ofList cs)] :=
  lexes_of_token (by decide) fun _ hrest =>
    quoted_enclosed '\'' .text cs (hrest.head_ne (by decide) (by decide))

theorem lexes_name (name : String) : Lexes (Predicate.nameChars name) [.name name] := by
  unfold Predicate.nameChars
  split_ifs with h
  · simpa using lexes_plain h
  · simpa using lexes_quoted_name name.toList

theorem isDigit_span {cs rest : List Char} (h : EndsWord rest)
    (hcs : ∀ c ∈ cs, Numeral.isDigit c = true) :
    (cs ++ rest).takeWhile Numeral.isDigit = cs ∧ (cs ++ rest).dropWhile Numeral.isDigit = rest :=
  h.span hcs (by decide) (by decide)

theorem number_integer (v : Int64) {rest : List Char} (h : EndsWord rest) :
    number (decide (v.toInt < 0)) (Numeral.digits v.toInt.natAbs ++ rest) =
      .ok (.integer v, rest) := by
  obtain ⟨htake, hdrop⟩ := isDigit_span h fun c hc => Numeral.isDigit_of_mem_digits hc
  have hvalue : (if decide (v.toInt < 0) = true then -(v.toInt.natAbs : Int)
      else v.toInt.natAbs) = v.toInt := by
    split_ifs with hneg
    · exact (Int.eq_neg_natAbs_of_nonpos (of_decide_eq_true hneg).le).symm
    · exact Int.natAbs_of_nonneg (not_lt.mp fun hlt => hneg (decide_eq_true hlt))
  unfold number
  rw [htake, hdrop]
  split
  · exact absurd rfl (h.head_ne (c := '.') (by decide) (by decide))
  · simp only [Numeral.value_digits, hvalue, Word.signed64?_toInt]

theorem number_decimal (negative : Bool) {cs rest : List Char} {digits places : Nat}
    (h : EndsWord rest) (hform : Double.PointForm cs digits places) :
    number negative (cs ++ rest) =
      .ok (.decimal (Double.ofDecimal negative digits places), rest) := by
  cases hform with
  | mk whole places hne hwhole hplaces =>
    have hpoint : ∀ c ∈ ('.' :: (places ++ rest)).head?, Numeral.isDigit c = false := by
      rintro c ⟨⟩
      rfl
    have htake : (whole ++ '.' :: (places ++ rest)).takeWhile Numeral.isDigit = whole := by
      rw [List.takeWhile_append_of_pos hwhole]
      simp [Numeral.isDigit]
    have hdrop : (whole ++ '.' :: (places ++ rest)).dropWhile Numeral.isDigit =
        '.' :: (places ++ rest) := by
      rw [List.dropWhile_append_of_pos hwhole]
      simp [Numeral.isDigit]
    obtain ⟨htake', hdrop'⟩ := isDigit_span h hplaces
    rw [List.append_assoc, List.cons_append]
    unfold number
    simp only [htake, hdrop, htake', hdrop']

theorem token_of_isDigit {c : Char} (h : Numeral.isDigit c = true) (rest : List Char) :
    token c rest = number false (c :: rest) := by
  have hne : ∀ d ∈ ['(', ')', ',', '*', '=', '!', '<', '>', '\'', '"'], c ≠ d := by
    rintro d hd rfl
    have hall : ∀ d ∈ ['(', ')', ',', '*', '=', '!', '<', '>', '\'', '"'],
        Numeral.isDigit d = false := Text.forall_eq_false (by decide)
    simp [hall c hd] at h
  unfold token
  split <;> try exact absurd rfl (hne _ (by decide))
  rw [if_pos h]

theorem token_minus {c : Char} (h : Numeral.isDigit c = true) (rest : List Char) :
    token '-' (c :: rest) = number true (c :: rest) := by
  simp [token, h, show Numeral.isDigit '-' = false from rfl]

theorem isSpace_of_isDigit {c : Char} (h : Numeral.isDigit c = true) : isSpace c = false := by
  have hall : ∀ d ∈ Text.blanks, Numeral.isDigit d = false := Text.forall_eq_false (by decide)
  have hne : c ≠ ';' := by
    rintro rfl
    exact absurd h (by decide)
  have hblank : Text.isBlank c = false := by
    by_contra hb
    have := hall c (Text.mem_blanks_of_isBlank (by simpa using hb))
    simp [h] at this
  simp [isSpace, hblank, hne]

theorem lexes_number {negative : Bool} {cs : List Char} {t : Token}
    (hdigit : ∃ c ∈ cs.head?, Numeral.isDigit c = true)
    (h : ∀ rest, EndsWord rest → number negative (cs ++ rest) = .ok (t, rest)) :
    Lexes (if negative = true then '-' :: cs else cs) [t] := by
  obtain ⟨c, hc, hdigit⟩ := hdigit
  obtain ⟨tail, rfl⟩ : ∃ tail, cs = c :: tail := List.head?_eq_some_iff.mp hc
  cases negative with
  | true =>
    refine lexes_of_token (by decide) fun rest hrest => ?_
    rw [List.cons_append, token_minus hdigit, ← List.cons_append]
    exact h rest hrest
  | false =>
    refine lexes_of_token (isSpace_of_isDigit hdigit) fun rest hrest => ?_
    rw [token_of_isDigit hdigit]
    exact h rest hrest

theorem lexes_integer (v : Int64) : Lexes (Numeral.integer v.toInt) [.integer v] := by
  have hdigit : ∃ c ∈ (Numeral.digits v.toInt.natAbs).head?, Numeral.isDigit c = true := by
    obtain ⟨c, tail, hcs⟩ := List.exists_cons_of_ne_nil (Numeral.digits_ne_nil v.toInt.natAbs)
    refine ⟨c, by rw [hcs]; rfl, Numeral.isDigit_of_mem_digits (n := v.toInt.natAbs) ?_⟩
    rw [hcs]
    exact List.mem_cons_self
  simpa [Numeral.integer] using lexes_number hdigit fun rest hrest => number_integer v hrest

theorem lexes_decimal {d : Double} (hfin : d.isFinite = true) :
    Lexes d.literalChars [.decimal d] := by
  obtain ⟨cs, digits, places, hchars, hform, hdecimal⟩ := Double.literalChars_pointForm hfin
  have hdigit : ∃ c ∈ cs.head?, Numeral.isDigit c = true := by
    cases hform with
    | mk whole places hne hwhole hplaces =>
      obtain ⟨c, tail, rfl⟩ := List.exists_cons_of_ne_nil hne
      exact ⟨c, rfl, hwhole c List.mem_cons_self⟩
  rw [hchars]
  refine lexes_number hdigit fun rest hrest => ?_
  rw [number_decimal d.isNegative hrest hform, hdecimal]

theorem lexes_truth (b : Bool) :
    Lexes (Literal.truthText b).toList [.name (Literal.truthText b)] := by
  have hplain : Predicate.isPlainName (Literal.truthText b).toList = true := by
    cases b <;> decide +kernel
  simpa using lexes_plain hplain

theorem lexes_comparator (c : Comparator) : Lexes c.text.toList [.comparator c] := by
  cases c <;> refine lexes_of_token (by decide) fun rest hrest => ?_
  all_goals
    rcases rest with _ | ⟨d, rest⟩
    · rfl
    · rcases hrest d rfl with rfl | rfl <;> rfl

end Lexer

namespace Literal

/-- The token that a printed literal is read as; truths are names. -/
def token : Literal → Token
  | text s => .text s
  | integer v => .integer v
  | decimal v => .decimal v
  | truth b => .name (truthText b)

def IsFinite : Literal → Prop
  | decimal v => v.isFinite = true
  | _ => True

theorem lexes {l : Literal} (h : l.IsFinite) : Lexer.Lexes l.chars [l.token] := by
  cases l with
  | text s => simpa [chars, token] using Lexer.lexes_quoted_text s.toList
  | integer v => exact Lexer.lexes_integer v
  | decimal v => exact Lexer.lexes_decimal h
  | truth b => exact Lexer.lexes_truth b

end Literal

namespace Comparison

def tokens (c : Comparison) : List Token :=
  [.name c.column, .comparator c.comparator, c.literal.token]

end Comparison

namespace Predicate

def All (P : Comparison → Prop) : Predicate → Prop
  | compare c => P c
  | and left right => left.All P ∧ right.All P
  | or left right => left.All P ∧ right.All P

def IsFinite (p : Predicate) : Prop :=
  p.All fun c => c.literal.IsFinite

def enclosed (ts : List Token) : List Token :=
  .openParen :: (ts ++ [.closeParen])

def tokens : Predicate → List Token
  | compare c => c.tokens
  | or left right => left.tokens ++ .name "OR" :: right.tokens
  | and left right =>
    (if left.isOr then enclosed left.tokens else left.tokens) ++ .name "AND" ::
      if right.isOr then enclosed right.tokens else right.tokens

theorem lexes_keyword {word : String} (h : isPlainName word.toList = true) :
    Lexer.Lexes word.toList [.name word] := by
  simpa using Lexer.lexes_plain h

theorem lexes_comparison {c : Comparison} (h : c.literal.IsFinite) :
    Lexer.Lexes (comparisonChars c) c.tokens :=
  (Lexer.lexes_name c.column).append_space
    ((Lexer.lexes_comparator c.comparator).append_space (Literal.lexes h))

theorem lexes_term {p : Predicate} (h : Lexer.Lexes p.chars p.tokens) :
    Lexer.Lexes (if p.isOr then parenthesized p.chars else p.chars)
      (if p.isOr then enclosed p.tokens else p.tokens) := by
  split_ifs
  · exact h.parenthesized
  · exact h

/-- The text of a predicate is cut into its tokens. -/
theorem lexes {p : Predicate} (h : p.IsFinite) : Lexer.Lexes p.chars p.tokens := by
  induction p with
  | compare c => exact lexes_comparison h
  | and left right ihl ihr =>
    have hand : Lexer.Lexes "AND".toList [.name "AND"] := lexes_keyword (by decide +kernel)
    simpa [chars, tokens] using
      (lexes_term (ihl h.1)).append_space (hand.append_space (lexes_term (ihr h.2)))
  | or left right ihl ihr =>
    have hor : Lexer.Lexes "OR".toList [.name "OR"] := lexes_keyword (by decide +kernel)
    simpa [chars, tokens] using (ihl h.1).append_space (hor.append_space (ihr h.2))

theorem tokens_ne_nil (p : Predicate) : p.tokens ≠ [] := by
  cases p <;> simp [tokens, Comparison.tokens]

theorem lexer_read_text {p : Predicate} (h : p.IsFinite) : Lexer.read p.text = .ok p.tokens :=
  (lexes h).read p.tokens_ne_nil

end Predicate

end Timeslice
