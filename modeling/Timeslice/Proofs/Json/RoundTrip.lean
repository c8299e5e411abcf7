import Mathlib.Tactic.Common
import Timeslice.Json.Printer
import Timeslice.Json.Reader

/-!
# Written JSON reads back

A value whose numbers are integers and whose strings all stand for texts is read from what is written
of it. A written part is followed by nothing or by a comma, a bracket or a brace, so that a number
ends where it was written to end.
-/

namespace Timeslice

namespace Json

/-- The numbers in the value are integers, and its strings and names stand for texts. -/
inductive IsPlain : Json → Prop where
  | null : IsPlain .null
  | bool (b : Bool) : IsPlain (.bool b)
  | int (i : Int) : IsPlain (.ofInt i)
  | text (s : String) : IsPlain (.ofString s)
  | array {items : List Json} (plain : ∀ v ∈ items, IsPlain v) : IsPlain (.array items)
  | object {fields : List (String × Json)} (plain : ∀ f ∈ fields, IsPlain f.2) :
    IsPlain (.ofFields fields)

/-- What may come after a written value: nothing, a comma, a bracket or a brace. -/
def EndsValue (rest : List Char) : Prop :=
  ∀ c ∈ rest.head?, c = ',' ∨ c = ']' ∨ c = '}'

end Json

namespace Json.Reader

open Json.Printer (escape)

variable {c : Char} {cs rest : List Char}

section Strings

def Piece.StandsFor (p : Piece) (c : Char) : Prop :=
  ∀ ps, join (p :: ps) = (join ps).map (c :: ·)

theorem Piece.char_standsFor (c : Char) : (Piece.char c).StandsFor c := fun _ => rfl

theorem Piece.unit_standsFor (h : c < ' ') : (Piece.unit c.toNat).StandsFor c := by
  have hlt : c.toNat < 32 := UInt32.lt_iff_toNat_lt.mp h
  have hhigh : isHigh c.toNat = false := by
    simp [isHigh]
    omega
  have hlow : isLow c.toNat = false := by
    simp [isLow]
    omega
  intro ps
  rcases ps with _ | ⟨_ | v, ps⟩ <;> simp [join, hhigh, hlow]

theorem hexValue?_hexDigit : ∀ n < 16, hexValue? (Printer.hexDigit n) = some n := by
  decide

theorem hexNumber?_hexDigits {n : Nat} (h : n < 32) :
    hexNumber? ['0', '0', Printer.hexDigit (n / 16), Printer.hexDigit (n % 16)] = some n := by
  have hhigh := hexValue?_hexDigit (n / 16) (by omega)
  have hlow := hexValue?_hexDigit (n % 16) (by omega)
  have hzero : hexValue? '0' = some 0 := rfl
  simp [hexNumber?, List.foldlM, hzero, hhigh, hlow]
  omega

theorem pieces_simple {e : Char} (h : simpleEscape? e = some c) (cs : List Char) :
    pieces ('\\' :: e :: cs) = (pieces cs).map fun r => (.char c :: r.1, r.2) := by
  have hu : e ≠ 'u' := by
    rintro rfl
    cases h
  rw [pieces, h]
  · cases pieces cs <;> rfl
  · rintro a b c d rest rfl
    exact absurd rfl hu

theorem pieces_unit {a b d e : Char} {n : Nat} (h : hexNumber? [a, b, d, e] = some n)
    (cs : List Char) : pieces ('\\' :: 'u' :: a :: b :: d :: e :: cs) =
      (pieces cs).map fun r => (.unit n :: r.1, r.2) := by
  rw [pieces, h]
  cases pieces cs <;> rfl

theorem pieces_char (hquote : c ≠ '"') (hslash : c ≠ '\\') (hcontrol : ¬c < ' ')
    (cs : List Char) : pieces (c :: cs) = (pieces cs).map fun r => (.char c :: r.1, r.2) := by
  rw [pieces, if_neg hcontrol]
  · cases pieces cs <;> rfl
  -- The rules before this one are for a quote or a backslash.
  all_goals
    intros
    simp_all

theorem pieces_escape (c : Char) (cs : List Char) : ∃ p : Piece, p.StandsFor c ∧
    pieces (escape c ++ cs) = (pieces cs).map fun r => (p :: r.1, r.2) := by
  have hsimple {e : Char} (h : simpleEscape? e = some c) : ∃ p : Piece, p.StandsFor c ∧
      pieces ('\\' :: e :: cs) = (pieces cs).map fun r => (p :: r.1, r.2) :=
    ⟨.char c, Piece.char_standsFor c, pieces_simple h cs⟩
  unfold escape
  split_ifs with hquote hslash hb hf hn hr ht hcontrol
  · exact hsimple (by rw [hquote]; rfl)
  · exact hsimple (by rw [hslash]; rfl)
  · exact hsimple (by rw [hb]; rfl)
  · exact hsimple (by rw [hf]; rfl)
  · exact hsimple (by rw [hn]; rfl)
  · exact hsimple (by rw [hr]; rfl)
  · exact hsimple (by rw [ht]; rfl)
  · have hlt : c.toNat < 32 := UInt32.lt_iff_toNat_lt.mp hcontrol
    exact ⟨.unit c.toNat, Piece.unit_standsFor hcontrol, pieces_unit (hexNumber?_hexDigits hlt) cs⟩
  · exact ⟨.char c, Piece.char_standsFor c, pieces_char hquote hslash hcontrol cs⟩

theorem literal_written (s : String) (rest : List Char) :
    ∃ body, Printer.literal s ++ rest = '"' :: body ∧ literal body = some (some s, rest) := by
  refine ⟨s.toList.flatMap escape ++ '"' :: rest, by simp [Printer.literal], ?_⟩
  have hpieces (cs : List Char) : ∃ ps, pieces (cs.flatMap escape ++ '"' :: rest) = some (ps, rest) ∧
      join ps = some cs := by
    induction cs with
    | nil => exact ⟨[], rfl, rfl⟩
    | cons c cs ih =>
      obtain ⟨ps, hps, hjoin⟩ := ih
      obtain ⟨p, hp, hread⟩ := pieces_escape c (cs.flatMap escape ++ '"' :: rest)
      refine ⟨p :: ps, ?_, ?_⟩
      · rw [List.flatMap_cons, List.append_assoc, hread, hps]
        rfl
      · rw [hp, hjoin]
        rfl
  obtain ⟨ps, hps, hjoin⟩ := hpieces s.toList
  simp only [literal, hps, Option.map_some, hjoin, String.ofList_toList]

end Strings

section Numbers

theorem eq_zero_of_head?_digits {n : Nat} (h : (Numeral.digits n).head? = some '0') : n = 0 := by
  induction n using Nat.strongRecOn with
  | ind n ih =>
    rw [Numeral.digits] at h
    split_ifs at h with hn
    · have hvalue := congrArg Numeral.digitValue (Option.some.inj h)
      rwa [Numeral.digitValue_digitChar hn] at hvalue
    · have hhead : (Numeral.digits (n / 10)).head? = some '0' := by
        obtain ⟨c, cs, hcs, -⟩ := Numeral.digits_starts (n / 10)
        rwa [hcs] at h ⊢
      have hzero := ih (n / 10) (by omega) hhead
      omega

theorem unsignedNumber_digits (negative : Bool) (n : Nat) (h : EndsValue rest) :
    unsignedNumber negative (Numeral.digits n ++ rest) =
      some (⟨negative, Numeral.digits n, none, none⟩, rest) := by
  have hended (c : Char) (hc : c ∈ rest.head?) : Numeral.isDigit c = false := by
    rcases h c hc with rfl | rfl | rfl <;> rfl
  obtain ⟨htake, hdrop⟩ :=
    Numeral.span_isDigit (fun c hc => Numeral.isDigit_of_mem_digits (n := n) hc) hended
  have hzero : ¬((Numeral.digits n).isEmpty ||
      ((Numeral.digits n).head? == some '0' && (Numeral.digits n).length != 1)) = true := by
    simp only [Bool.or_eq_true, List.isEmpty_iff, Numeral.digits_ne_nil, Bool.and_eq_true,
      beq_iff_eq, bne_iff_ne, false_or, not_and, not_not]
    intro hhead
    rw [eq_zero_of_head?_digits hhead, Numeral.digits]
    rfl
  have hfraction : fraction rest = some (none, rest) := by
    rcases rest with _ | ⟨c, rest⟩
    · rfl
    · rcases h c rfl with rfl | rfl | rfl <;> rfl
  have hpower : power rest = some (none, rest) := by
    rcases rest with _ | ⟨c, rest⟩
    · rfl
    · rcases h c rfl with rfl | rfl | rfl <;> rfl
  simp only [unsignedNumber, htake, hdrop, if_neg hzero, hfraction, hpower, Option.bind_eq_bind,
    Option.bind_some]

theorem number_ofInt (i : Int) : Printer.number (.ofInt i) = Numeral.integer i := by
  unfold Printer.number JsonNumber.ofInt Numeral.integer
  split_ifs <;> simp_all

theorem number_written (i : Int) (h : EndsValue rest) :
    number (Printer.number (.ofInt i) ++ rest) = some (.ofInt i, rest) := by
  have hwritten : unsignedNumber (decide (i < 0)) (Numeral.digits i.natAbs ++ rest) =
      some (.ofInt i, rest) := unsignedNumber_digits _ _ h
  rw [number_ofInt, Numeral.integer]
  split_ifs with hneg
  · rwa [decide_eq_true hneg] at hwritten
  · obtain ⟨c, cs, hcs, hdigit⟩ := Numeral.digits_starts i.natAbs
    rw [decide_eq_false hneg, hcs, List.cons_append] at hwritten
    rw [hcs, List.cons_append, number]
    · exact hwritten
    · rintro rest' hcons
      cases hcons
      exact absurd hdigit (by decide)

theorem number_starts (i : Int) : ∃ c cs, Printer.number (.ofInt i) = c :: cs ∧
    (c = '-' ∨ Numeral.isDigit c = true) := by
  rw [number_ofInt, Numeral.integer]
  split_ifs with hneg
  · exact ⟨'-', _, rfl, .inl rfl⟩
  · obtain ⟨c, cs, hcs, hdigit⟩ := Numeral.digits_starts i.natAbs
    exact ⟨c, cs, hcs, .inr hdigit⟩

end Numbers

section Values

theorem skip_cons (h : isSpace c = false) (cs : List Char) : skip (c :: cs) = c :: cs := by
  simp [skip, h]

/-- What is written of the value is read as the value, and what comes after it is left. Two calls for
each character are enough. -/
def ReadsBack (v : Json) : Prop :=
  ∀ fuel rest, 2 * (Printer.value v).length ≤ fuel → EndsValue rest →
    value (fuel + 1) (Printer.value v ++ rest) = some (v, rest)

theorem not_isSpace_of_number (h : c = '-' ∨ Numeral.isDigit c = true) : isSpace c = false := by
  by_contra hspace
  simp only [isSpace, Bool.not_eq_false, Bool.or_eq_true, beq_iff_eq] at hspace
  rcases hspace with ((rfl | rfl) | rfl) | rfl <;> exact absurd h (by decide)

/-- A written value starts with a character that is neither white space nor a bracket that ends an
array. -/
theorem value_starts {v : Json} (h : v.IsPlain) :
    ∃ c cs, Printer.value v = c :: cs ∧ isSpace c = false ∧ c ≠ ']' := by
  cases h with
  | null => exact ⟨'n', _, by rw [Printer.value]; rfl, rfl, by decide⟩
  | bool b =>
    cases b with
    | false => exact ⟨'f', _, by rw [Printer.value]; rfl, rfl, by decide⟩
    | true => exact ⟨'t', _, by rw [Printer.value]; rfl, rfl, by decide⟩
  | int i =>
    obtain ⟨c, cs, hcs, hc⟩ := number_starts i
    refine ⟨c, cs, by rw [Json.ofInt, Printer.value, hcs], not_isSpace_of_number hc, ?_⟩
    rintro rfl
    exact absurd hc (by decide)
  | text s => exact ⟨'"', _, by rw [Json.ofString, Printer.value]; rfl, rfl, by decide⟩
  | array plain => exact ⟨'[', _, by rw [Printer.value], rfl, by decide⟩
  | object plain => exact ⟨'{', _, by rw [Json.ofFields, Printer.value], rfl, by decide⟩

theorem readsBack_int (i : Int) : ReadsBack (.ofInt i) := by
  intro fuel rest _ hrest
  obtain ⟨c, cs, hcs, hc⟩ := number_starts i
  have hread := number_written i hrest
  simp only [Json.ofInt, Printer.value]
  rw [hcs, List.cons_append] at hread ⊢
  rw [value, skip_cons (not_isSpace_of_number hc)]
  split
  case h_7 => rw [hread]; rfl
  all_goals
    next heq =>
      obtain ⟨rfl, -⟩ := List.cons.inj heq
      exact absurd hc (by decide)

theorem readsBack_text (s : String) : ReadsBack (.ofString s) := by
  intro fuel rest _ _
  obtain ⟨body, hbody, hread⟩ := literal_written s rest
  simp only [Json.ofString, Printer.value, Option.getD_some]
  rw [hbody, value, skip_cons rfl]
  simp only [hread, Option.map_some]

theorem items_listed {v : Json} {vs : List Json} (hreads : ∀ w ∈ v :: vs, ReadsBack w) (fuel : Nat)
    (hfuel : 2 * (Printer.listed (v :: vs)).length ≤ fuel) (rest : List Char) :
    items (fuel + 2) (Printer.listed (v :: vs) ++ ']' :: rest) = some (v :: vs, rest) := by
  induction vs generalizing v fuel with
  | nil =>
    have hv := hreads v List.mem_cons_self fuel (']' :: rest) hfuel (by simp [EndsValue])
    rw [Printer.listed, items, hv]
    rfl
  | cons w vs ih =>
    rw [Printer.listed, List.length_append, List.length_cons] at hfuel
    have hv := hreads v List.mem_cons_self fuel (',' :: (Printer.listed (w :: vs) ++ ']' :: rest))
      (by omega) (by simp [EndsValue])
    obtain ⟨fuel, rfl⟩ := Nat.exists_eq_add_one_of_ne_zero (show fuel ≠ 0 by omega)
    have hvs := ih (fun u hu => hreads u (List.mem_cons_of_mem _ hu)) fuel (by omega)
    rw [Printer.listed, List.append_assoc, List.cons_append, items, hv]
    simp only [Option.bind_eq_bind, Option.bind_some, skip_cons (c := ',') rfl, hvs]

theorem readsBack_array {vs : List Json} (plain : ∀ v ∈ vs, IsPlain v)
    (hreads : ∀ v ∈ vs, ReadsBack v) : ReadsBack (.array vs) := by
  intro fuel rest hfuel _
  simp only [Printer.value, List.length_cons, List.length_append, List.length_nil] at hfuel
  obtain ⟨fuel, rfl⟩ : ∃ k, fuel = k + 2 := ⟨fuel - 2, by omega⟩
  simp only [Printer.value, List.cons_append, List.append_assoc, List.nil_append]
  rw [value, skip_cons rfl]
  cases vs with
  | nil => simp only [Printer.listed, List.nil_append, skip_cons (c := ']') rfl]
  | cons v vs =>
    have hitems := items_listed hreads fuel (by omega) rest
    obtain ⟨c, cs, hcs, hspace, hbracket⟩ := value_starts (plain v List.mem_cons_self)
    obtain ⟨cs', hcs'⟩ : ∃ cs', Printer.listed (v :: vs) = c :: cs' := by
      cases vs <;> simp [Printer.listed, hcs]
    rw [hcs', List.cons_append] at hitems ⊢
    simp only [skip_cons hspace]
    split
    · next heq =>
      cases heq
      exact absurd rfl hbracket
    · rw [hitems, Option.map_some]

def named (fs : List (String × Json)) : List (Option String × Json) :=
  fs.map fun f => (some f.1, f.2)

theorem fields_last {name : String} {v : Json} (hreads : ReadsBack v) {fuel : Nat}
    (hfuel : 2 * (Printer.value v).length ≤ fuel) (rest : List Char) :
    fields (fuel + 2) (Printer.literal name ++ ':' :: (Printer.value v ++ '}' :: rest)) =
      some ([(some name, v)], rest) := by
  obtain ⟨body, hbody, hname⟩ := literal_written name (':' :: (Printer.value v ++ '}' :: rest))
  have hv := hreads fuel ('}' :: rest) hfuel (by simp [EndsValue])
  rw [fields, hbody]
  simp only [skip_cons (c := '"') rfl, skip_cons (c := ':') rfl, skip_cons (c := '}') rfl, hname, hv,
    Option.bind_eq_bind, Option.bind_some]

theorem fields_more {name : String} {v : Json} (hreads : ReadsBack v) {fuel : Nat}
    (hfuel : 2 * (Printer.value v).length ≤ fuel) (rest : List Char) :
    fields (fuel + 2) (Printer.literal name ++ ':' :: (Printer.value v ++ ',' :: rest)) =
      (fields (fuel + 1) rest).bind fun r => some ((some name, v) :: r.1, r.2) := by
  obtain ⟨body, hbody, hname⟩ := literal_written name (':' :: (Printer.value v ++ ',' :: rest))
  have hv := hreads fuel (',' :: rest) hfuel (by simp [EndsValue])
  rw [fields, hbody]
  simp only [skip_cons (c := '"') rfl, skip_cons (c := ':') rfl, skip_cons (c := ',') rfl, hname, hv,
    Option.bind_eq_bind, Option.bind_some]

theorem fields_listed {f : String × Json} {fs : List (String × Json)}
    (hreads : ∀ g ∈ f :: fs, ReadsBack g.2) (fuel : Nat)
    (hfuel : 2 * (Printer.listedFields (named (f :: fs))).length ≤ fuel) (rest : List Char) :
    fields (fuel + 2) (Printer.listedFields (named (f :: fs)) ++ '}' :: rest) =
      some (named (f :: fs), rest) := by
  induction fs generalizing f fuel with
  | nil =>
    simp only [named, List.map_cons, List.map_nil, Printer.listedFields, Option.getD_some,
      List.length_append, List.length_cons, List.append_assoc, List.cons_append] at hfuel ⊢
    exact fields_last (hreads f List.mem_cons_self) (by omega) rest
  | cons g fs ih =>
    have hfs := ih (fun u hu => hreads u (List.mem_cons_of_mem _ hu)) (fuel - 1)
    simp only [named, List.map_cons, Printer.listedFields, Option.getD_some, List.length_append,
      List.length_cons, List.append_assoc, List.cons_append] at hfuel hfs ⊢
    rw [fields_more (hreads f List.mem_cons_self) (by omega)]
    obtain ⟨fuel, rfl⟩ := Nat.exists_eq_add_one_of_ne_zero (show fuel ≠ 0 by omega)
    simp only [Nat.add_sub_cancel] at hfs
    simp only [hfs (by omega), Option.bind_some]

theorem readsBack_object {fs : List (String × Json)} (hreads : ∀ f ∈ fs, ReadsBack f.2) :
    ReadsBack (.ofFields fs) := by
  intro fuel rest hfuel _
  simp only [show Json.ofFields fs = .object (named fs) from rfl, Printer.value, List.length_cons,
    List.length_append, List.length_nil, List.cons_append, List.append_assoc,
    List.nil_append] at hfuel ⊢
  obtain ⟨fuel, rfl⟩ : ∃ k, fuel = k + 2 := ⟨fuel - 2, by omega⟩
  rw [value, skip_cons rfl]
  cases fs with
  | nil =>
    simp only [named, List.map_nil, Printer.listedFields, List.nil_append, skip_cons (c := '}') rfl]
  | cons f fs =>
    have hfields := fields_listed hreads fuel (by omega) rest
    obtain ⟨cs, hcs⟩ : ∃ cs, Printer.listedFields (named (f :: fs)) = '"' :: cs := by
      cases fs <;> simp [named, Printer.listedFields, Printer.literal]
    rw [hcs, List.cons_append] at hfields ⊢
    simp only [skip_cons (c := '"') rfl]
    split
    · next heq => cases heq
    · rw [hfields, Option.map_some]

theorem readsBack {v : Json} (h : v.IsPlain) : ReadsBack v := by
  induction h with
  | null => exact fun _ _ _ _ => rfl
  | bool b => cases b <;> exact fun _ _ _ _ => rfl
  | int i => exact readsBack_int i
  | text s => exact readsBack_text s
  | array plain ih => exact readsBack_array plain ih
  | object _ ih => exact readsBack_object ih

end Values

end Json.Reader

namespace Json

/-- A value whose numbers are integers and whose strings stand for texts is read from what is
written of it. -/
theorem read_write {v : Json} (h : v.IsPlain) : read v.write = some v := by
  have hread := Reader.readsBack h (2 * (Printer.value v).length + 1) [] (by omega)
    (by simp [EndsValue])
  rw [List.append_nil] at hread
  simp only [read, write, String.toList_ofList, hread]
  rfl

end Json

end Timeslice
