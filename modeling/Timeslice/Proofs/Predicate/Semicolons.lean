import Timeslice.Proofs.Predicate.Seams
import Timeslice.Query.Statement

/-!
# Semicolons

A semicolon outside quotes is read as a blank wherever it stands, so it ends a statement, and it may
as well stand in the middle of one. Inside quotes it is a character like others.
-/

namespace Timeslice

def Quoted.turn (opened : Option Char) (c : Char) : Option Char :=
  match opened with
  | none => if c = '\'' ∨ c = '"' then some c else none
  | some q => if c = q then none else some q

namespace Lexer

/-- The characters with a space in place of each semicolon that is not quoted. -/
def spaced (opened : Option Char) : List Char → List Char
  | [] => []
  | c :: rest =>
    (if opened = none ∧ c = ';' then ' ' else c) :: spaced (Quoted.turn opened c) rest

variable {opened : Option Char} {cs rest : List Char} {c : Char}

theorem turn_none (hsingle : c ≠ '\'') (hdouble : c ≠ '"') : Quoted.turn none c = none := by
  simp [Quoted.turn, hsingle, hdouble]

theorem spaced_none_cons (hsingle : c ≠ '\'') (hdouble : c ≠ '"') (hsemicolon : c ≠ ';') :
    spaced none (c :: rest) = c :: spaced none rest := by
  simp [spaced, turn_none hsingle hdouble, hsemicolon]

theorem spaced_some_cons (q : Char) (hc : c ≠ q) :
    spaced (some q) (c :: rest) = c :: spaced (some q) rest := by
  simp [spaced, Quoted.turn, hc]

theorem width_spaced (opened : Option Char) (cs : List Char) :
    width (spaced opened cs) = width cs := by
  induction cs generalizing opened with
  | nil => rfl
  | cons c rest ih =>
    have hsize : (if opened = none ∧ c = ';' then ' ' else c).utf8Size = c.utf8Size := by
      split_ifs with h
      · rw [h.2]
        rfl
      · rfl
    rw [spaced, width, width, ih, hsize]

theorem turn_spaced (opened : Option Char) (c : Char) :
    Quoted.turn opened (if opened = none ∧ c = ';' then ' ' else c) = Quoted.turn opened c := by
  split_ifs with h
  · obtain ⟨rfl, rfl⟩ := h
    rfl
  · rfl

theorem turn_of_spaced {before after : List Char}
    (h : spaced opened cs = before ++ ';' :: after) : before.foldl Quoted.turn opened ≠ none := by
  induction cs generalizing opened before with
  | nil => simp [spaced] at h
  | cons c cs ih =>
    rw [spaced] at h
    cases before with
    | nil =>
      rintro rfl
      obtain ⟨hc, -⟩ := List.cons.inj h
      by_cases hsemicolon : c = ';' <;> simp [hsemicolon] at hc
    | cons b before =>
      obtain ⟨rfl, hrest⟩ := List.cons.inj h
      rw [List.foldl_cons, turn_spaced]
      exact ih hrest

theorem length_spaced (opened : Option Char) (cs : List Char) :
    (spaced opened cs).length = cs.length := by
  induction cs generalizing opened with
  | nil => rfl
  | cons c cs ih => rw [spaced, List.length_cons, List.length_cons, ih]

theorem spaced_append (opened : Option Char) (cs rest : List Char) :
    spaced opened (cs ++ rest) = spaced opened cs ++ spaced (cs.foldl Quoted.turn opened) rest := by
  induction cs generalizing opened with
  | nil => rfl
  | cons c cs ih => rw [List.cons_append, spaced, spaced, ih, List.cons_append, List.foldl_cons]

theorem getElem?_spaced (opened : Option Char) (before : List Char) (c : Char)
    (after : List Char) : (spaced opened (before ++ c :: after))[before.length]? =
      some (if before.foldl Quoted.turn opened = none ∧ c = ';' then ' ' else c) := by
  rw [spaced_append, List.getElem?_append_right (by rw [length_spaced]), length_spaced,
    Nat.sub_self, spaced]
  rfl

theorem keeps_spaced : Keeps (spaced none) where
  cons c hgoes rest := by
    have hne : ∀ d, goesOn d = false → c ≠ d := by
      rintro d hd rfl
      rw [hgoes] at hd
      cases hd
    exact spaced_none_cons (hne _ (by decide +kernel)) (hne _ (by decide +kernel))
      (hne _ (by decide +kernel))
  head cs hcs := by
    cases cs with
    | nil => exact hcs
    | cons c rest =>
      rintro d ⟨⟩
      split_ifs with hsemicolon
      · decide +kernel
      · exact hcs c rfl

theorem close_spaced {q : Char} (hq : q = '\'' ∨ q = '"') (cs : List Char) :
    Quoted.close q (spaced (some q) cs) =
      (Quoted.close q cs).map fun r => (r.1, spaced none r.2) := by
  have hopen : Quoted.turn none q = some q := if_pos hq
  have hclose : Quoted.turn (some q) q = none := if_pos rfl
  have hsemicolon : q ≠ ';' := by rintro rfl; simp at hq
  induction cs using Quoted.close.induct (q := q) with
  | case1 => rfl
  | case2 => simp [spaced, Quoted.close]
  | case3 c hc => simp [spaced, Quoted.close, hc]
  | case4 rest ih =>
    have htwice : spaced (some q) (q :: q :: rest) = q :: q :: spaced (some q) rest := by
      simp [spaced, hopen, hclose, hsemicolon]
    rw [htwice]
    simp only [Quoted.close, if_true, ih, Option.map_map]
    rfl
  | case5 d rest hd =>
    have hend : spaced (some q) (q :: d :: rest) = q :: spaced none (d :: rest) := by
      simp [spaced, hclose]
    have hne : (if d = ';' then ' ' else d) ≠ q := by
      split_ifs
      · rintro rfl
        simp at hq
      · exact hd
    rw [hend]
    simp [spaced, Quoted.close, hd, hne]
  | case6 c d rest hc ih =>
    obtain ⟨tail, htail⟩ : ∃ tail, spaced (some q) (d :: rest) = d :: tail :=
      ⟨spaced (Quoted.turn (some q) d) rest, by simp [spaced]⟩
    rw [spaced_some_cons q hc, htail]
    rw [htail] at ih
    simp only [Quoted.close, hc, if_false, ih, Option.map_map]
    rfl

theorem quoted_spaced {q : Char} (hq : q = '\'' ∨ q = '"') (make : String → Token)
    (cs : List Char) : quoted q make (spaced (some q) cs) =
      (quoted q make cs).map fun r => (r.1, spaced none r.2) := by
  rw [quoted, quoted, close_spaced hq]
  cases Quoted.close q cs <;> rfl

theorem token_spaced (c : Char) (cs : List Char) :
    token c (spaced (Quoted.turn none c) cs) =
      (token c cs).map fun r => (r.1, spaced none r.2) := by
  by_cases hsingle : c = '\''
  · subst hsingle
    exact quoted_spaced (.inl rfl) .text cs
  by_cases hdouble : c = '"'
  · subst hdouble
    exact quoted_spaced (.inr rfl) .name cs
  rw [turn_none hsingle hdouble]
  exact keeps_spaced.token hsingle hdouble cs

/-- The tokens stay the same, and so do the faults with their places. -/
theorem tokens_spaced (total : Nat) (cs : List Char) :
    tokens total (spaced none cs) = tokens total cs := by
  induction cs using tokens.induct with
  | case1 => rfl
  | case2 c rest hspace ih =>
    have hspaced : ∃ d, isSpace d = true ∧ spaced none (c :: rest) = d :: spaced none rest := by
      by_cases hsemicolon : c = ';'
      · subst hsemicolon
        exact ⟨' ', by decide, rfl⟩
      · have hne : ∀ d, isSpace d = false → c ≠ d := by
          rintro d hd rfl
          rw [hspace] at hd
          cases hd
        exact ⟨c, hspace, spaced_none_cons (hne _ (by decide)) (hne _ (by decide)) hsemicolon⟩
    obtain ⟨d, hd, hspaced⟩ := hspaced
    rw [hspaced, tokens, if_pos hd, tokens, if_pos hspace, ih]
  | case3 c rest hspace flaw hflaw =>
    have hspace' : isSpace c = false := by simpa using hspace
    have hsemicolon : c ≠ ';' := by rintro rfl; cases hspace'
    have htoken := token_spaced c rest
    rw [hflaw] at htoken
    have hwidth := width_spaced none (c :: rest)
    simp only [spaced, hsemicolon, and_false, if_false] at hwidth ⊢
    rw [tokens_flaw hspace' htoken, tokens_flaw hspace' hflaw, hwidth]
  | case4 c rest hspace t after hok _ ih =>
    have hspace' : isSpace c = false := by simpa using hspace
    have hsemicolon : c ≠ ';' := by rintro rfl; cases hspace'
    have htoken := token_spaced c rest
    rw [hok] at htoken
    simp only [spaced, hsemicolon, and_false, if_false]
    rw [tokens_cons hspace' htoken, tokens_cons hspace' hok, ih]

theorem tokens_of_spaces (total : Nat) (h : ∀ c ∈ cs, isSpace c = true) :
    tokens total cs = .ok [] := by
  induction cs with
  | nil => rw [tokens]
  | cons c cs ih =>
    obtain ⟨hc, hcs⟩ := List.forall_mem_cons.mp h
    rw [tokens, if_pos hc, ih hcs]

def spacedText (s : String) : String :=
  String.ofList (spaced none s.toList)

theorem read_spacedText (s : String) : read (spacedText s) = read s := by
  rw [read, read, spacedText, String.toList_ofList, width_spaced, tokens_spaced]

/-- A semicolon may end a text, and blanks may follow it. -/
theorem read_terminated {s tail : String} {ts : List Token} (h : read s = .ok ts)
    (htail : ∀ c ∈ tail.toList, Text.isBlank c = true) : read (s ++ ";" ++ tail) = .ok ts := by
  obtain ⟨htokens, hne⟩ := read_eq_ok_iff.mp h
  refine read_eq_ok_iff.mpr ⟨?_, hne⟩
  have hseam : Seam s.toList (';' :: tail.toList) := by
    rintro c ⟨⟩
    exact ⟨by decide +kernel, by simp⟩
  have hspaces : ∀ c ∈ ';' :: tail.toList, isSpace c = true :=
    List.forall_mem_cons.mpr ⟨rfl, fun c hc => by simp [isSpace, htail c hc]⟩
  have htext : (s ++ ";" ++ tail).toList = s.toList ++ ';' :: tail.toList := by simp
  rw [htext, tokens_append htokens hseam, tokens_of_spaces _ hspaces]
  simp [Except.map]

end Lexer

def Quoted.Outside (before : List Char) : Prop :=
  before.foldl turn none = none

instance (before : List Char) : Decidable (Quoted.Outside before) :=
  inferInstanceAs (Decidable (_ = _))

/-- Outside quotes a semicolon has nothing but blanks behind it, so that there is one at most. -/
def OnlyTerminates (s : String) : Prop :=
  ∀ before after, s.toList = before ++ ';' :: after → Quoted.Outside before →
    ∀ c ∈ after, Text.isBlank c = true

/-- What the semicolons of a text do when it is read. -/
structure Semicolons (s : String) : Prop where
  statement_spaced : Statement.read (Lexer.spacedText s) = Statement.read s
  predicate_spaced : Predicate.read (Lexer.spacedText s) = Predicate.read s
  none_left : ∀ before after, (Lexer.spacedText s).toList = before ++ ';' :: after →
    ¬Quoted.Outside before
  length_eq : (Lexer.spacedText s).toList.length = s.toList.length
  others_kept : ∀ before c after, s.toList = before ++ c :: after →
    (Lexer.spacedText s).toList[before.length]? =
      some (if Quoted.Outside before ∧ c = ';' then ' ' else c)
  terminated : ∀ statement tail, Statement.read s = .ok statement →
    (∀ c ∈ tail.toList, Text.isBlank c = true) →
      Statement.read (s ++ ";" ++ tail) = .ok statement

theorem semicolons (s : String) : Semicolons s where
  statement_spaced := by rw [Statement.read, Lexer.read_spacedText, Statement.read]
  predicate_spaced := by rw [Predicate.read, Lexer.read_spacedText, Predicate.read]
  none_left before after h := by
    rw [Lexer.spacedText, String.toList_ofList] at h
    exact Lexer.turn_of_spaced h
  length_eq := by rw [Lexer.spacedText, String.toList_ofList, Lexer.length_spaced]
  others_kept before c after h := by
    rw [Lexer.spacedText, String.toList_ofList, h]
    exact Lexer.getElem?_spaced none before c after
  terminated statement tail h htail := by
    obtain ⟨ts, hlex, hts⟩ := Except.exists_of_bind h
    rw [Statement.read, Lexer.read_terminated hlex htail]
    exact hts

/-- A semicolon joins what stands before it to what stands behind it. -/
theorem semicolon_joins_loads :
    Statement.read "SELECT load FROM loads; WHERE load = 1" =
        .ok (.select ⟨"loads", .columns ["load"], some (.compare ⟨"load", .equal, .integer 1⟩)⟩) ∧
      ¬OnlyTerminates "SELECT load FROM loads; WHERE load = 1" ∧
      Predicate.read "load = 1;" = .ok (.compare ⟨"load", .equal, .integer 1⟩) ∧
      Quoted.Outside "load = 1".toList := by
  refine ⟨by decide +kernel, fun h => ?_, by decide +kernel, by decide +kernel⟩
  have hblank := h "SELECT load FROM loads".toList " WHERE load = 1".toList (by decide +kernel)
    (by decide +kernel) 'W' (by decide +kernel)
  exact absurd hblank (by decide)

end Timeslice
