import Timeslice.Proofs.Predicate.Composing
import Timeslice.Schema.Check

/-!
# Names in double quotes

Any text at all is a name when it stands in double quotes. A token does not tell whether its name
was quoted, though: as an operand the names of the truths are literals in quotes too, so that no
predicate has a column of such a name, and a quoted keyword is a keyword wherever the bare word is.
-/

namespace Timeslice

def quoteName (name : String) : String :=
  String.ofList (Quoted.enclose '"' name.toList)

/-- The text is the name of a truth, in any case. -/
def Operand.NamesTruth (name : String) : Prop :=
  ∃ b, Text.sameWord name (Literal.truthText b) = true

namespace Grammar

theorem means_column_iff {name : String} :
    Means (.name name) (.column name) ↔ ¬Operand.NamesTruth name := by
  constructor
  · rintro (⟨htrue, hfalse⟩) ⟨b, hb⟩
    cases b with
    | true => exact Bool.noConfusion (htrue.symm.trans hb)
    | false => exact Bool.noConfusion (hfalse.symm.trans hb)
  · intro h
    exact .column (Bool.eq_false_iff.mpr fun htrue => h ⟨true, htrue⟩)
      (Bool.eq_false_iff.mpr fun hfalse => h ⟨false, hfalse⟩)

theorem ofName_of_not_namesTruth {name : String} (h : ¬Operand.NamesTruth name) :
    Operand.ofName name = .column name :=
  Option.some.inj (means_iff.mp (means_column_iff.mpr h))

theorem ofName_of_sameWord {name : String} {b : Bool}
    (h : Text.sameWord name (Literal.truthText b) = true) :
    Operand.ofName name = .value (.truth b) :=
  Option.some.inj (means_iff.mp (.truth b h))

theorem ofTokens_operands {t u : Token} {left right : Operand} (hleft : Means t left)
    (hright : Means u right) (c : Comparator) :
    Predicate.ofTokens [t, .comparator c, u] = (left.compare c right).map .compare := by
  have hopen : t ≠ .openParen := by
    rintro rfl
    cases hleft
  cases h : left.compare c right with
  | ok d =>
    simp only [Predicate.ofTokens, PredicateParser.State.start,
      PredicateParser.run_operands hleft hright h]
    rfl
  | error fault =>
    simp only [Predicate.ofTokens, PredicateParser.State.start, PredicateParser.run,
      PredicateParser.step, if_neg hopen, means_iff.mp hleft, means_iff.mp hright, h]
    rfl

end Grammar

namespace Lexer

theorem lexes_quoteName (name : String) : Lexes (quoteName name).toList [.name name] := by
  simpa [quoteName] using lexes_quoted_name name.toList

/-- Between any two texts that do not add a quote to it, a quoted name is one token. -/
theorem tokens_quoted_name {total : Nat} {before after : List Char} {ts : List Token}
    (h : tokens total before = .ok ts) (hbefore : before.getLast? ≠ some '"')
    (hafter : after.head? ≠ some '"') (name : String) (total' : Nat) :
    tokens total' (before ++ ((quoteName name).toList ++ after)) =
      (tokens total' after).map fun us => ts ++ .name name :: us := by
  have hseam : Seam before ((quoteName name).toList ++ after) := by
    intro c hc
    obtain rfl : '"' = c := by simpa [quoteName, Quoted.enclose] using hc
    exact ⟨by decide +kernel, fun _ => hbefore⟩
  have htoken : token '"' (Quoted.double '"' name.toList ++ ['"'] ++ after) =
      .ok (.name name, after) := by
    have hquoted := quoted_enclosed '"' .name name.toList hafter
    rw [String.ofList_toList] at hquoted
    exact hquoted
  have hcons : (quoteName name).toList ++ after =
      '"' :: (Quoted.double '"' name.toList ++ ['"'] ++ after) := by
    simp [quoteName, Quoted.enclose]
  rw [tokens_append h hseam, hcons, tokens_cons (by decide) htoken]
  cases tokens total' after <;> simp [Except.map]

theorem tokens_eq_ok_of_total {total : Nat} {cs : List Char} {ts : List Token} (total' : Nat)
    (h : tokens total cs = .ok ts) : tokens total' cs = .ok ts := by
  have happend := tokens_append h (seam_of_endsWord endsWord_nil) total'
  rw [List.append_nil, tokens, Except.map, List.append_nil] at happend
  exact happend

/-- A text around a single token is read as the token and the tokens on both sides of it. -/
theorem read_joinTexts_iff {before word after : String} {t : Token} {ts us : List Token}
    (hbefore : Lexes before.toList ts) (hword : Lexes word.toList [t]) :
    read (Predicate.joinTexts before word after) = .ok us ↔
      ∃ vs, tokens 0 after.toList = .ok vs ∧ us = ts ++ t :: vs := by
  rw [read_eq_ok_iff, Predicate.toList_joinTexts, hbefore _ _ (endsWord_space _), tokens_space,
    hword _ _ (endsWord_space _), tokens_space]
  generalize width _ = total
  constructor
  · rintro ⟨h, -⟩
    obtain ⟨ws, hws, rfl⟩ := Except.exists_of_map h
    obtain ⟨vs, hvs, rfl⟩ := Except.exists_of_map hws
    exact ⟨vs, tokens_eq_ok_of_total 0 hvs, rfl⟩
  · rintro ⟨vs, hvs, rfl⟩
    rw [tokens_eq_ok_of_total total hvs]
    exact ⟨rfl, by simp⟩

theorem read_quoteName_iff {before name after : String} {ts us : List Token}
    (hbefore : Lexes before.toList ts) (hplain : Predicate.isPlainName name.toList = true) :
    read (Predicate.joinTexts before (quoteName name) after) = .ok us ↔
      read (Predicate.joinTexts before name after) = .ok us := by
  rw [read_joinTexts_iff hbefore (lexes_quoteName name),
    read_joinTexts_iff hbefore (Predicate.lexes_keyword hplain)]

end Lexer

namespace Statement

open Grammar

def namesText : List String → String
  | [] => ""
  | [name] => quoteName name
  | name :: rest => quoteName name ++ ", " ++ namesText rest

def projectionText : Projection → String
  | .all => "*"
  | .columns names => namesText names

def conditionText : Option String → String
  | none => ""
  | some text => " WHERE " ++ text

def selectText (projection : Projection) (table : String) (condition : Option String) : String :=
  "SELECT " ++ projectionText projection ++ " FROM " ++ quoteName table ++ conditionText condition

theorem exists_lexes_namesText {names : List String} (hne : names ≠ []) :
    ∃ ts, Lexer.Lexes (namesText names).toList ts ∧ Names ts names := by
  induction names with
  | nil => exact absurd rfl hne
  | cons name rest ih =>
    cases rest with
    | nil => exact ⟨[.name name], Lexer.lexes_quoteName name, .single name⟩
    | cons next rest =>
      obtain ⟨ts, hlexes, hnames⟩ := ih (List.cons_ne_nil _ _)
      refine ⟨.name name :: .comma :: ts, fun total tail htail => ?_, .more name hnames⟩
      have htext : (namesText (name :: next :: rest)).toList ++ tail =
          [] ++ ((quoteName name).toList ++
            ',' :: ' ' :: ((namesText (next :: rest)).toList ++ tail)) := by
        simp [namesText]
      have hcomma : Lexer.token ',' (' ' :: ((namesText (next :: rest)).toList ++ tail)) =
          .ok (.comma, ' ' :: ((namesText (next :: rest)).toList ++ tail)) := rfl
      have hnil : Lexer.tokens 0 [] = .ok [] := by rw [Lexer.tokens]
      rw [htext, Lexer.tokens_quoted_name hnil (by simp) (by simp),
        Lexer.tokens_cons (by decide) hcomma, Lexer.tokens_space, hlexes total tail htail]
      cases Lexer.tokens total tail <;> rfl

theorem exists_lexes_projectionText {projection : Projection} (hne : projection ≠ .columns []) :
    ∃ ts, Lexer.Lexes (projectionText projection).toList ts ∧ Projects ts projection := by
  cases projection with
  | all =>
    refine ⟨[.star], Lexer.lexes_of_token (by decide) fun _ _ => rfl, .all⟩
  | columns names =>
    have hnames : names ≠ [] := by
      rintro rfl
      exact hne rfl
    obtain ⟨ts, hlexes, hnames⟩ := exists_lexes_namesText hnames
    exact ⟨ts, hlexes, .columns hnames⟩

theorem read_of_lexes {s : String} {ts : List Token} {statement : Statement}
    (hlexes : Lexer.Lexes s.toList ts) (h : States ts statement) : read s = .ok statement := by
  have hts := ofTokens_iff.mpr h
  have hne : ts ≠ [] := by
    rintro rfl
    cases hts
  rw [read, ← s.ofList_toList, hlexes.read hne, Except.bind, hts]

/-- In a SELECT each quoted name is the name that it spells. -/
theorem read_selectText {projection : Projection} (table : String) {condition : Option String}
    {predicate : Option Predicate} (hprojection : projection ≠ .columns [])
    (hcondition : condition.mapM Predicate.read = .ok predicate) :
    read (selectText projection table condition) =
      .ok (.select ⟨table, projection, predicate⟩) := by
  obtain ⟨ps, hps, hprojects⟩ := exists_lexes_projectionText hprojection
  have hselect := @Predicate.lexes_keyword "SELECT" (by decide +kernel)
  have hfrom := @Predicate.lexes_keyword "FROM" (by decide +kernel)
  have hwhere := @Predicate.lexes_keyword "WHERE" (by decide +kernel)
  have hhead := hselect.append_space
    (hps.append_space (hfrom.append_space (Lexer.lexes_quoteName table)))
  cases condition with
  | none =>
    cases hcondition
    have hlexes : Lexer.Lexes (selectText projection table none).toList
        (.name "SELECT" :: (ps ++ [.name "FROM", .name table])) := by
      simpa [selectText, conditionText] using hhead
    exact read_of_lexes hlexes (.select (by decide) hprojects (by decide) .none)
  | some text =>
    obtain ⟨p, hp, rfl⟩ := Except.exists_of_map (f := some) hcondition
    obtain ⟨ws, hws, hderives⟩ := Predicate.exists_lexes_of_read hp
    have hlexes : Lexer.Lexes (selectText projection table (some text)).toList
        (.name "SELECT" :: (ps ++ .name "FROM" :: .name table :: .name "WHERE" :: ws)) := by
      simpa [selectText, conditionText] using hhead.append_space (hwhere.append_space hws)
    exact read_of_lexes hlexes
      (.select (by decide) hprojects (by decide) (.some (by decide) hderives))

theorem read_describe (table : String) :
    read ("DESCRIBE " ++ quoteName table) = .ok (.describe table) := by
  have hdescribe := @Predicate.lexes_keyword "DESCRIBE" (by decide +kernel)
  have hlexes : Lexer.Lexes ("DESCRIBE " ++ quoteName table).toList
      [.name "DESCRIBE", .name table] := by
    simpa using hdescribe.append_space (Lexer.lexes_quoteName table)
  exact read_of_lexes hlexes (.describe (by decide))

end Statement

namespace Predicate

variable {name : String} {t : Token} {l : Literal} {c : Comparator}

theorem read_eq_of_tokens {s : String} {ts : List Token} (h : Lexer.tokens 0 s.toList = .ok ts)
    (hne : ts ≠ []) : read s = ofTokens ts := by
  have hread : Lexer.read s = .ok ts :=
    Lexer.read_eq_ok_iff.mpr ⟨Lexer.tokens_eq_ok_of_total _ h, hne⟩
  rw [read, hread, Except.bind]

theorem read_quoted_first {after : String} (hafter : after.toList.head? ≠ some '"')
    (h : Lexer.tokens 0 after.toList = .ok [.comparator c, t]) (ht : Grammar.Means t (.value l)) :
    read (quoteName name ++ after) =
      ((Operand.ofName name).compare c (.value l)).map .compare := by
  have hname : Grammar.Means (.name name) (Operand.ofName name) := Grammar.means_iff.mpr rfl
  have hnil : Lexer.tokens 0 [] = .ok [] := by rw [Lexer.tokens]
  have htokens := Lexer.tokens_quoted_name hnil (by simp) hafter name 0
  rw [h] at htokens
  rw [← Grammar.ofTokens_operands hname ht]
  refine read_eq_of_tokens ?_ (List.cons_ne_nil _ _)
  rw [String.toList_append]
  exact htokens

theorem read_quoted_last {before : String} (hbefore : before.toList.getLast? ≠ some '"')
    (h : Lexer.tokens 0 before.toList = .ok [t, .comparator c]) (ht : Grammar.Means t (.value l)) :
    read (before ++ quoteName name) =
      ((Operand.value l).compare c (Operand.ofName name)).map .compare := by
  have hname : Grammar.Means (.name name) (Operand.ofName name) := Grammar.means_iff.mpr rfl
  have hnil : Lexer.tokens 0 [] = .ok [] := by rw [Lexer.tokens]
  have hend : ([] : List Char).head? ≠ some '"' := by simp
  have htokens := Lexer.tokens_quoted_name h hbefore hend name 0
  rw [hnil, List.append_nil] at htokens
  rw [← Grammar.ofTokens_operands ht hname]
  refine read_eq_of_tokens ?_ (List.cons_ne_nil _ _)
  rw [String.toList_append]
  exact htokens

/-- No predicate has a column with the name of a truth, and any other name can be compared. -/
theorem exists_mentions_iff (name : String) :
    (∃ text p, read text = .ok p ∧ p.mentions name = true) ↔ ¬Operand.NamesTruth name := by
  constructor
  · rintro ⟨text, p, hp, hmentions⟩
    obtain ⟨ts, -, hts⟩ := Except.exists_of_bind hp
    have hname := ofName_of_mentions (isReadable_of_ofTokens hts) hmentions
    exact Grammar.means_column_iff.mp (Grammar.means_iff.mpr (congrArg some hname))
  · intro h
    have hname := Grammar.ofName_of_not_namesTruth h
    have hlex : Lexer.tokens 0 " = 1".toList = .ok [.comparator .equal, .integer 1] := by
      decide +kernel
    have hread : read (quoteName name ++ " = 1") =
        ((Operand.ofName name).compare .equal (.value (.integer 1))).map .compare :=
      read_quoted_first (by decide) hlex (.integer 1)
    rw [hname] at hread
    exact ⟨_, _, hread, by simp [mentions, columns]⟩

end Predicate

/-- What a text in double quotes is, by the place where it stands. -/
structure QuotedName (name : String) : Prop where
  token : ∀ before after ts, Lexer.tokens 0 before = .ok ts → before.getLast? ≠ some '"' →
    after.head? ≠ some '"' → ∀ total,
      Lexer.tokens total (before ++ ((quoteName name).toList ++ after)) =
        (Lexer.tokens total after).map fun us => ts ++ .name name :: us
  compared : ¬Operand.NamesTruth name → ∀ c t l, Grammar.Means t (.value l) →
    (∀ after : String, after.toList.head? ≠ some '"' →
        Lexer.tokens 0 after.toList = .ok [.comparator c, t] →
          Predicate.read (quoteName name ++ after) = .ok (.compare ⟨name, c, l⟩)) ∧
      ∀ before : String, before.toList.getLast? ≠ some '"' →
        Lexer.tokens 0 before.toList = .ok [t, .comparator c] →
          Predicate.read (before ++ quoteName name) = .ok (.compare ⟨name, c.flip, l⟩)
  /-- The name of a truth is not a column there, but a second literal. -/
  refused : ∀ b, Text.sameWord name (Literal.truthText b) = true →
    ∀ c t l, Grammar.Means t (.value l) →
      (∀ after : String, after.toList.head? ≠ some '"' →
          Lexer.tokens 0 after.toList = .ok [.comparator c, t] →
            Predicate.read (quoteName name ++ after) =
              .error (.unexpectedToken .columnName (.value l))) ∧
        ∀ before : String, before.toList.getLast? ≠ some '"' →
          Lexer.tokens 0 before.toList = .ok [t, .comparator c] →
            Predicate.read (before ++ quoteName name) =
              .error (.unexpectedToken .columnName (.value (.truth b)))
  filters_iff : (∃ text p, Predicate.read text = .ok p ∧ p.mentions name = true) ↔
    ¬Operand.NamesTruth name
  projected : ∀ before after table condition predicate,
    condition.mapM Predicate.read = .ok predicate →
      Statement.read
          (Statement.selectText (.columns (before ++ name :: after)) table condition) =
        .ok (.select ⟨table, .columns (before ++ name :: after), predicate⟩)
  selected : ∀ projection condition predicate, projection ≠ .columns [] →
    condition.mapM Predicate.read = .ok predicate →
      Statement.read (Statement.selectText projection name condition) =
        .ok (.select ⟨name, projection, predicate⟩)
  described : Statement.read ("DESCRIBE " ++ quoteName name) = .ok (.describe name)
  /-- A plain name, and a keyword is one, is in quotes what it is without them. -/
  bare : Predicate.isPlainName name.toList = true → ∀ before after ts,
    Lexer.tokens 0 before.toList = .ok ts →
      (∀ p, Predicate.read (Predicate.joinTexts before (quoteName name) after) = .ok p ↔
          Predicate.read (Predicate.joinTexts before name after) = .ok p) ∧
        ∀ s, Statement.read (Predicate.joinTexts before (quoteName name) after) = .ok s ↔
          Statement.read (Predicate.joinTexts before name after) = .ok s

theorem quotedName (name : String) : QuotedName name where
  token before after ts h hbefore hafter total :=
    Lexer.tokens_quoted_name h hbefore hafter name total
  compared hname c t l ht := by
    have hcolumn := Grammar.ofName_of_not_namesTruth hname
    refine ⟨fun after hafter h => ?_, fun before hbefore h => ?_⟩
    · rw [Predicate.read_quoted_first hafter h ht, hcolumn]
      rfl
    · rw [Predicate.read_quoted_last hbefore h ht, hcolumn]
      rfl
  refused b hb c t l ht := by
    have hvalue := Grammar.ofName_of_sameWord hb
    refine ⟨fun after hafter h => ?_, fun before hbefore h => ?_⟩
    · rw [Predicate.read_quoted_first hafter h ht, hvalue]
      rfl
    · rw [Predicate.read_quoted_last hbefore h ht, hvalue]
      rfl
  filters_iff := Predicate.exists_mentions_iff name
  projected before after table condition predicate h :=
    Statement.read_selectText table (by simp) h
  selected projection condition predicate hprojection h :=
    Statement.read_selectText name hprojection h
  described := Statement.read_describe name
  bare hplain before after ts h :=
    have hread := fun us => Lexer.read_quoteName_iff (Lexer.lexes_of_tokens h) hplain
    ⟨fun p => Except.bind_eq_ok_congr hread, fun s => Except.bind_eq_ok_congr hread⟩

def flagSchema : Schema where
  name := "flags"
  columns := [
    ⟨⟨"time", .timestamp, false⟩, some 1, some 1, some ⟨1, .second⟩⟩,
    ⟨⟨"true", .boolean, true⟩, none, none, none⟩]

/-- A column of a valid table cannot be filtered on, and keywords are not kept apart by quotes. -/
theorem true_column_not_read :
    flagSchema.check = .ok () ∧ "true" ∈ flagSchema.columnNames ∧
      Predicate.read "\"true\" = 1" =
        .error (.unexpectedToken .columnName (.value (.integer 1))) ∧
      (¬∃ text p, Predicate.read text = .ok p ∧ p.mentions "true" = true) ∧
      Statement.read "\"describe\" loads" = .ok (.describe "loads") ∧
      Predicate.read "load = 1 \"or\" load = 2" =
        .ok (.or (.compare ⟨"load", .equal, .integer 1⟩)
          (.compare ⟨"load", .equal, .integer 2⟩)) := by
  refine ⟨by decide +kernel, by decide +kernel, by decide +kernel, ?_, by decide +kernel,
    by decide +kernel⟩
  rw [Predicate.exists_mentions_iff]
  exact not_not_intro ⟨true, by decide +kernel⟩

end Timeslice
