import Mathlib.Data.List.TakeWhile
import Timeslice.Proofs.Predicate.Lexing
import Timeslice.Proofs.Results
import Timeslice.Time.Quantum

/-!
# Specifications of quanta

A text specifies a quantum if, without the blanks around it, it is a run of digits, blanks if any, and
a name of a unit. Everything else about it is a fault; of the faults that a text has, the first one in
their order is reported. What is printed of a quantum specifies it.
-/

namespace Timeslice

namespace Text

structure Trims (cs core : List Char) : Prop where
  parts : ∃ lead trail, cs = lead ++ core ++ trail ∧ (∀ c ∈ lead, isBlank c = true) ∧
    ∀ c ∈ trail, isBlank c = true
  first : ∀ c ∈ core.head?, isBlank c = false
  last : ∀ c ∈ core.getLast?, isBlank c = false

theorem trimLeft_append {lead rest : List Char} (hlead : ∀ c ∈ lead, isBlank c = true)
    (hrest : ∀ c ∈ rest.head?, isBlank c = false) : trimLeft (lead ++ rest) = rest := by
  rw [trimLeft, List.dropWhile_append_of_pos hlead]
  cases rest with
  | nil => rfl
  | cons c rest => rw [List.dropWhile_cons_of_neg (by simp [hrest c rfl])]

theorem exists_trimLeft (cs : List Char) : ∃ lead, cs = lead ++ trimLeft cs ∧
    (∀ c ∈ lead, isBlank c = true) ∧ ∀ c ∈ (trimLeft cs).head?, isBlank c = false := by
  refine ⟨cs.takeWhile isBlank, (List.takeWhile_append_dropWhile).symm,
    fun c hc => List.all_eq_true.mp List.all_takeWhile c hc, fun c hc => ?_⟩
  have := List.head?_dropWhile_not isBlank cs
  rw [trimLeft] at hc
  rw [hc] at this
  simpa using this

theorem Trims.trim_eq {cs core : List Char} (h : Trims cs core) : trim cs = core := by
  obtain ⟨lead, trail, rfl, hlead, htrail⟩ := h.parts
  cases core with
  | nil =>
    have hblank : trimLeft (lead ++ [] ++ trail) = [] := by
      rw [List.append_nil, trimLeft, List.dropWhile_append_of_pos hlead]
      exact List.dropWhile_eq_nil_iff.mpr htrail
    rw [trim, hblank]
    rfl
  | cons c core =>
    have hcore : trimLeft (lead ++ c :: core ++ trail) = c :: core ++ trail := by
      rw [List.append_assoc]
      exact trimLeft_append hlead fun d hd => h.first d hd
    have hreverse : trimLeft (c :: core ++ trail).reverse = (c :: core).reverse := by
      rw [List.reverse_append]
      refine trimLeft_append (fun d hd => htrail d (List.mem_reverse.mp hd)) fun d hd => ?_
      rw [List.head?_reverse] at hd
      exact h.last d hd
    rw [trim, hcore, hreverse, List.reverse_reverse]

theorem trims_trim (cs : List Char) : Trims cs (trim cs) := by
  obtain ⟨lead, hlead, hblank, hfirst⟩ := exists_trimLeft cs
  obtain ⟨trail, htrail, hblank', hlast⟩ := exists_trimLeft (trimLeft cs).reverse
  have hmiddle : trimLeft cs = trim cs ++ trail.reverse := by
    rw [← List.reverse_inj, htrail]
    simp [trim]
  refine ⟨⟨lead, trail.reverse, ?_, hblank, fun c hc => hblank' c (List.mem_reverse.mp hc)⟩,
    fun c hc => hfirst c ?_, fun c hc => hlast c ?_⟩
  · rw [List.append_assoc, ← hmiddle]
    exact hlead
  · rw [hmiddle, List.head?_append, Option.mem_def.mp hc, Option.some_or]
    rfl
  · rwa [trim, List.getLast?_reverse] at hc

theorem trims_self {cs : List Char} (h : ∀ c ∈ cs, isBlank c = false) : Trims cs cs :=
  ⟨⟨[], [], by simp, nofun, nofun⟩, fun c hc => h c (List.mem_of_mem_head? hc),
    fun c hc => h c (List.mem_of_getLast? hc)⟩

theorem isBlank_of_isDigit {c : Char} (h : Numeral.isDigit c = true) : isBlank c = false := by
  have hspace := Lexer.isSpace_of_isDigit h
  rw [Lexer.isSpace, Bool.or_eq_false_iff] at hspace
  exact hspace.1

theorem toLower_of_isBlank {c : Char} (h : isBlank c = true) : c.toLower = c := by
  have hall : (blanks.all fun d => d.toLower == d) = true := by decide
  simpa using List.all_eq_true.mp hall c (mem_blanks_of_isBlank h)

theorem toLower_of_isDigit {c : Char} (h : Numeral.isDigit c = true) : c.toLower = c := by
  simp only [Numeral.isDigit, Char.isDigit, Bool.and_eq_true, decide_eq_true_eq,
    UInt32.le_iff_toNat_le] at h
  have hbelow : ¬(c.val ≥ 'A'.val ∧ c.val ≤ 'Z'.val) := by
    rintro ⟨hlow, -⟩
    have hA : 'A'.val.toNat ≤ c.val.toNat := UInt32.le_iff_toNat_le.mp hlow
    exact absurd (hA.trans h.2) (by decide)
  exact dif_neg hbelow

end Text

namespace TimeUnit

/-- The word is one of the unit's names, in any ASCII case. -/
def IsNamed (u : TimeUnit) (word : List Char) : Prop :=
  ∃ name ∈ u.names, name.toList = word.map Char.toLower

variable {u v : TimeUnit} {word : List Char}

theorem IsNamed.unique (hu : u.IsNamed word) (hv : v.IsNamed word) : u = v := by
  obtain ⟨name, hname, hword⟩ := hu
  obtain ⟨name', hname', hword'⟩ := hv
  obtain rfl : name = name' := String.toList_inj.mp (hword.trans hword'.symm)
  have hapart : ∀ name ∈ u.names, name ∈ v.names → u = v := by
    cases u <;> cases v <;> decide
  exact hapart name hname hname'

theorem ofName?_eq_some_iff : ofName? (String.ofList word) = some u ↔ u.IsNamed word := by
  have hany (v : TimeUnit) :
      v.names.any (Text.sameWord (String.ofList word)) = true ↔ v.IsNamed word := by
    have hlower : ∀ name ∈ v.names, name.toList.map Char.toLower = name.toList := by
      cases v <;> decide
    simp only [List.any_eq_true, Text.sameWord, String.toList_ofList, beq_iff_eq, IsNamed]
    refine exists_congr fun name => and_congr_right fun hname => ?_
    rw [hlower name hname, eq_comm]
  have hnamed {v : TimeUnit} (h : ofName? (String.ofList word) = some v) : v.IsNamed word := by
    have hword := List.find?_some h
    exact (hany v).mp hword
  refine ⟨hnamed, fun h => ?_⟩
  have hfound : (ofName? (String.ofList word)).isSome = true :=
    List.find?_isSome.mpr ⟨u, by cases u <;> decide, (hany u).mpr h⟩
  obtain ⟨v, hv⟩ := Option.isSome_iff_exists.mp hfound
  rw [hv, IsNamed.unique (hnamed hv) h]

theorem IsNamed.ink (h : u.IsNamed word) :
    word ≠ [] ∧ ∀ c ∈ word, Text.isBlank c = false ∧ Numeral.isDigit c = false := by
  obtain ⟨name, hname, hword⟩ := h
  have hletters : (u.names.all fun name => !name.toList.isEmpty &&
      name.toList.all fun c => !Text.isBlank c && !Numeral.isDigit c) = true := by
    cases u <;> decide
  obtain ⟨hne, hink⟩ : name.toList ≠ [] ∧
      ∀ c ∈ name.toList, Text.isBlank c = false ∧ Numeral.isDigit c = false := by
    simpa using List.all_eq_true.mp hletters name hname
  rw [hword] at hne hink
  refine ⟨by simpa using hne, fun c hc => ?_⟩
  obtain ⟨hblank, hdigit⟩ := hink c.toLower (List.mem_map_of_mem hc)
  constructor
  · refine Bool.eq_false_iff.mpr fun h => ?_
    rw [Text.toLower_of_isBlank h, h] at hblank
    cases hblank
  · refine Bool.eq_false_iff.mpr fun h => ?_
    rw [Text.toLower_of_isDigit h, h] at hdigit
    cases hdigit

theorem isNamed_code (u : TimeUnit) : u.IsNamed [u.code] := by
  cases u
  · exact ⟨"s", by decide, by decide⟩
  · exact ⟨"m", by decide, by decide⟩
  · exact ⟨"h", by decide, by decide⟩
  · exact ⟨"d", by decide, by decide⟩

end TimeUnit

namespace Quantum

/-- The parts of a text without blanks around it: the digits that it starts with, the blanks behind
them, and the word behind those. -/
structure Parts (spec digits gap word : List Char) : Prop where
  whole : spec = digits ++ (gap ++ word)
  numeric : ∀ c ∈ digits, Numeral.isDigit c = true
  blank : ∀ c ∈ gap, Text.isBlank c = true
  ink : ∀ c ∈ word.head?, Text.isBlank c = false
  ended : ∀ c ∈ (gap ++ word).head?, Numeral.isDigit c = false

structure IsSpec (cs digits gap word : List Char) (unit : TimeUnit) : Prop where
  trimmed : Text.Trims cs (digits ++ (gap ++ word))
  digits_ne_nil : digits ≠ []
  numeric : ∀ c ∈ digits, Numeral.isDigit c = true
  range : 1 ≤ Numeral.value digits ∧ Numeral.value digits ≤ 4294967295
  blank : ∀ c ∈ gap, Text.isBlank c = true
  named : unit.IsNamed word

end Quantum

namespace SpecFault

def Applies (spec digits word : List Char) : SpecFault → Prop
  | empty => spec = []
  | missingInterval s => digits = [] ∧ s = String.ofList spec
  | missingUnit s => word = [] ∧ s = String.ofList spec
  | intervalOutOfRange s =>
    (Numeral.value digits = 0 ∨ 4294967295 < Numeral.value digits) ∧ s = String.ofList spec
  | unknownUnit s unit =>
    (∀ u : TimeUnit, ¬u.IsNamed word) ∧ s = String.ofList spec ∧ unit = String.ofList word

/-- The place of the fault in the order in which faults are reported. -/
def rank : SpecFault → Nat
  | empty => 0
  | missingInterval _ => 1
  | missingUnit _ => 2
  | intervalOutOfRange _ => 3
  | unknownUnit _ _ => 4

structure IsFirst (spec digits word : List Char) (fault : SpecFault) : Prop where
  applies : fault.Applies spec digits word
  first : ∀ other : SpecFault, other.rank < fault.rank → ¬other.Applies spec digits word

variable {spec digits word : List Char} {fault other : SpecFault}

theorem IsFirst.unique (h : fault.IsFirst spec digits word)
    (h' : other.IsFirst spec digits word) : fault = other := by
  have hrank : fault.rank = other.rank := by
    rcases Nat.lt_trichotomy fault.rank other.rank with hlt | heq | hlt
    · exact absurd h.applies (h'.first fault hlt)
    · exact heq
    · exact absurd h'.applies (h.first other hlt)
  have hfault := h.applies
  have hother := h'.applies
  cases fault <;> cases other <;> simp_all [rank, Applies]

end SpecFault

namespace Quantum

variable {cs spec digits gap word : List Char} {s : String} {q : Quantum}

theorem exists_parts (spec : List Char) : ∃ digits gap word, Parts spec digits gap word := by
  have hdigits := List.takeWhile_append_dropWhile (p := Numeral.isDigit) (l := spec)
  obtain ⟨gap, hgap, hblank, hfirst⟩ := Text.exists_trimLeft (spec.dropWhile Numeral.isDigit)
  refine ⟨spec.takeWhile Numeral.isDigit, gap, _, ?_, ?_, hblank, hfirst, ?_⟩
  · rw [← hgap, hdigits]
  · exact fun c hc => List.all_eq_true.mp List.all_takeWhile c hc
  · rw [← hgap]
    intro c hc
    have := List.head?_dropWhile_not Numeral.isDigit spec
    rw [Option.mem_def.mp hc] at this
    simpa using this

theorem IsSpec.parts {unit : TimeUnit} (h : IsSpec cs digits gap word unit) :
    Parts (digits ++ (gap ++ word)) digits gap word := by
  obtain ⟨-, hink⟩ := h.named.ink
  have hword {c : Char} (hc : c ∈ word.head?) := hink c (List.mem_of_mem_head? hc)
  refine ⟨rfl, h.numeric, h.blank, fun c hc => (hword hc).1, fun c hc => ?_⟩
  cases gap with
  | nil => exact (hword hc).2
  | cons b gap =>
    obtain rfl : b = c := Option.some.inj hc
    refine Bool.eq_false_iff.mpr fun hdigit => ?_
    cases (h.blank b List.mem_cons_self).symm.trans (Text.isBlank_of_isDigit hdigit)

theorem Parts.spans (h : Parts spec digits gap word) :
    spec.takeWhile Numeral.isDigit = digits ∧ spec.dropWhile Numeral.isDigit = gap ++ word := by
  rw [h.whole]
  exact Numeral.span_isDigit h.numeric h.ended

theorem Parts.trims (htrim : Text.Trims cs spec) (h : Parts spec digits gap word) :
    Text.Trims (gap ++ word) word := by
  refine ⟨⟨gap, [], by rw [List.append_nil], h.blank, nofun⟩, h.ink, fun c hc => ?_⟩
  refine htrim.last c ?_
  rw [h.whole, List.getLast?_append, List.getLast?_append, Option.mem_def.mp hc, Option.some_or,
    Option.some_or]
  rfl

/-- A text that is read as a quantum specifies it, and otherwise its first fault is found. -/
theorem read_cases (htrim : Text.Trims s.toList spec) (h : Parts spec digits gap word) :
    (∃ q, read s = .ok q ∧ IsSpec s.toList digits gap word q.unit ∧
        q.interval.toNat = Numeral.value digits) ∨
      ∃ fault : SpecFault, read s = .error fault ∧ fault.IsFirst spec digits word := by
  obtain ⟨htake, hdrop⟩ := h.spans
  simp only [read, htrim.trim_eq, htake, hdrop, (h.trims htrim).trim_eq, List.isEmpty_iff]
  split_ifs with hspec hdigits hword hrange
  · exact .inr ⟨.empty, rfl, hspec, fun other hlt => absurd hlt (Nat.not_lt_zero _)⟩
  · refine .inr ⟨_, rfl, ⟨hdigits, rfl⟩, fun other hlt => ?_⟩
    cases other <;> simp_all [SpecFault.rank, SpecFault.Applies]
  · refine .inr ⟨_, rfl, ⟨hword, rfl⟩, fun other hlt => ?_⟩
    cases other <;> simp_all [SpecFault.rank, SpecFault.Applies]
  · refine .inr ⟨_, rfl, ⟨hrange, rfl⟩, fun other hlt => ?_⟩
    cases other <;> simp_all [SpecFault.rank, SpecFault.Applies]
  · have hbounds : 1 ≤ Numeral.value digits ∧ Numeral.value digits ≤ 4294967295 := by
      unfold UInt32.size at hrange
      omega
    cases hunit : TimeUnit.ofName? (String.ofList word) with
    | some u =>
      have htrim' : Text.Trims s.toList (digits ++ (gap ++ word)) := h.whole ▸ htrim
      have hvalue : (UInt32.ofNat (Numeral.value digits)).toNat = Numeral.value digits :=
        UInt32.toNat_ofNat_of_lt (Nat.lt_succ_of_le hbounds.2)
      exact .inl ⟨⟨UInt32.ofNat (Numeral.value digits), u⟩, rfl, ⟨htrim', hdigits, h.numeric, hbounds,
        h.blank, TimeUnit.ofName?_eq_some_iff.mp hunit⟩, hvalue⟩
    | none =>
      have hnamed (u : TimeUnit) : ¬u.IsNamed word := fun hu => by
        rw [TimeUnit.ofName?_eq_some_iff.mpr hu] at hunit
        cases hunit
      refine .inr ⟨_, rfl, ⟨hnamed, rfl, rfl⟩, fun other hlt => ?_⟩
      cases other <;> simp_all [SpecFault.rank, SpecFault.Applies]

theorem IsSpec.not_applies {unit : TimeUnit} (h : IsSpec cs digits gap word unit)
    (fault : SpecFault) : ¬fault.Applies (digits ++ (gap ++ word)) digits word := by
  have hrange := h.range
  cases fault with
  | empty => simp [SpecFault.Applies, h.digits_ne_nil]
  | missingInterval s => exact fun ⟨hdigits, _⟩ => h.digits_ne_nil hdigits
  | missingUnit s => exact fun ⟨hword, _⟩ => h.named.ink.1 hword
  | intervalOutOfRange s =>
    rintro ⟨hvalue, -⟩
    omega
  | unknownUnit s unit' => exact fun ⟨hnone, _⟩ => hnone unit h.named

theorem read_eq_ok_iff : read s = .ok q ↔
    ∃ digits gap word, IsSpec s.toList digits gap word q.unit ∧
      q.interval.toNat = Numeral.value digits := by
  constructor
  · intro hread
    obtain ⟨digits, gap, word, hparts⟩ := exists_parts (Text.trim s.toList)
    rcases read_cases (Text.trims_trim s.toList) hparts with ⟨q', hq', hspec⟩ | ⟨fault, hfault, -⟩
    · obtain rfl : q' = q := Except.ok.inj (hq'.symm.trans hread)
      exact ⟨digits, gap, word, hspec⟩
    · cases hfault.symm.trans hread
  · rintro ⟨digits, gap, word, hspec, hvalue⟩
    rcases read_cases hspec.trimmed hspec.parts with ⟨q', hq', hspec', hvalue'⟩ | ⟨fault, -, hfirst⟩
    · have hinterval : q'.interval = q.interval :=
        UInt32.toNat_inj.mp (hvalue'.trans hvalue.symm)
      have hunit : q'.unit = q.unit := hspec'.named.unique hspec.named
      rw [hq']
      cases q
      cases q'
      simp_all
    · exact absurd hfirst.applies (hspec.not_applies fault)

theorem read_eq_error_iff {fault : SpecFault} : read s = .error fault ↔
    ∃ spec digits gap word, Text.Trims s.toList spec ∧ Parts spec digits gap word ∧
      fault.IsFirst spec digits word := by
  constructor
  · intro hread
    obtain ⟨digits, gap, word, hparts⟩ := exists_parts (Text.trim s.toList)
    have htrim := Text.trims_trim s.toList
    rcases read_cases htrim hparts with ⟨q, hq, -⟩ | ⟨fault', hfault', hfirst⟩
    · cases hq.symm.trans hread
    · obtain rfl : fault' = fault := Except.error.inj (hfault'.symm.trans hread)
      exact ⟨_, digits, gap, word, htrim, hparts, hfirst⟩
  · rintro ⟨spec, digits, gap, word, htrim, hparts, hfirst⟩
    rcases read_cases htrim hparts with ⟨q, -, hspec, -⟩ | ⟨fault', hfault', hfirst'⟩
    · refine absurd hfirst.applies ?_
      rw [hparts.whole]
      exact hspec.not_applies fault
    · rw [hfault', hfirst'.unique hfirst]

theorem read_text (h : 0 < q.interval) : read q.text = .ok q := by
  have hpos : 0 < q.interval.toNat := UInt32.lt_iff_toNat_lt.mp h
  have hlt : q.interval.toNat < 4294967296 := q.interval.toNat_lt
  have hnumeric (c : Char) (hc : c ∈ Numeral.digits q.interval.toNat) :
      Numeral.isDigit c = true := Numeral.isDigit_of_mem_digits hc
  have hnamed := q.unit.isNamed_code
  have hink (c : Char) (hc : c ∈ Numeral.digits q.interval.toNat ++ [q.unit.code]) :
      Text.isBlank c = false := by
    rcases List.mem_append.mp hc with hc | hc
    · exact Text.isBlank_of_isDigit (hnumeric c hc)
    · exact (hnamed.ink.2 c hc).1
  have hvalue : q.interval.toNat = Numeral.value (Numeral.digits q.interval.toNat) :=
    (Numeral.value_digits _).symm
  refine read_eq_ok_iff.mpr ⟨_, [], [q.unit.code], ⟨?_, Numeral.digits_ne_nil _, hnumeric, ?_, nofun,
    hnamed⟩, hvalue⟩
  · rw [text, String.toList_ofList, List.nil_append]
    exact Text.trims_self hink
  · omega

theorem interval_pos_of_read (h : read s = .ok q) : 0 < q.interval := by
  obtain ⟨digits, gap, word, hspec, hvalue⟩ := read_eq_ok_iff.mp h
  rw [UInt32.lt_iff_toNat_lt, hvalue]
  exact hspec.range.1

/-- Which texts specify quanta, what is wrong with the others, and what is made of a quantum. -/
structure Specs : Prop where
  accepts_iff : ∀ s, (∃ q, read s = .ok q) ↔
    ∃ digits gap word unit, IsSpec s.toList digits gap word unit
  read_eq_ok_iff : ∀ s q, read s = .ok q ↔
    ∃ digits gap word, IsSpec s.toList digits gap word q.unit ∧
      q.interval.toNat = Numeral.value digits
  read_eq_error_iff : ∀ s fault, read s = .error fault ↔
    ∃ spec digits gap word, Text.Trims s.toList spec ∧ Parts spec digits gap word ∧
      fault.IsFirst spec digits word
  read_text : ∀ q : Quantum, 0 < q.interval → read q.text = .ok q
  text_read : ∀ s t, (read s).map text = .ok t → (read t).map text = .ok t
  width : ∀ q : Quantum, 0 < q.interval →
    q.width.toInt = (q.interval.toNat * q.unit.millis : Nat) ∧ 0 < q.width.toInt

theorem specs : Specs where
  accepts_iff s := by
    constructor
    · rintro ⟨q, hq⟩
      obtain ⟨digits, gap, word, hspec, -⟩ := read_eq_ok_iff.mp hq
      exact ⟨digits, gap, word, q.unit, hspec⟩
    · rintro ⟨digits, gap, word, unit, hspec⟩
      have hlt := Nat.lt_succ_of_le hspec.range.2
      exact ⟨⟨UInt32.ofNat (Numeral.value digits), unit⟩, read_eq_ok_iff.mpr
        ⟨digits, gap, word, hspec, UInt32.toNat_ofNat_of_lt hlt⟩⟩
  read_eq_ok_iff _ _ := Quantum.read_eq_ok_iff
  read_eq_error_iff _ _ := Quantum.read_eq_error_iff
  read_text _ h := Quantum.read_text h
  text_read s t h := by
    obtain ⟨q, hq, rfl⟩ := Except.exists_of_map h
    rw [Quantum.read_text (interval_pos_of_read hq)]
    rfl
  width q h := by
    have hpos : 0 < q.interval.toNat := UInt32.lt_iff_toNat_lt.mp h
    have hmillis : 0 < q.unit.millis := by cases q.unit <;> decide
    rw [toInt_width]
    exact ⟨rfl, Int.natCast_pos.mpr (Nat.mul_pos hpos hmillis)⟩

example : read " 0005\t MiNs " = .ok ⟨5, .minute⟩ ∧
    read "0 w" = .error (.intervalOutOfRange "0 w") := by decide +kernel

end Quantum

end Timeslice
