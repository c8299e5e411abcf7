import Timeslice.Command.Basic
import Timeslice.Proofs.Predicate.Names
import Timeslice.Proofs.Query.Planning

/-!
# Table names of built commands

A name that has ink, a character that is no blank, can be stored into, fetched from, deleted from,
listed and described; a name of blanks only can be none of these. A schema is only refused the empty
name, and a query text may quote any name at all, the empty one included.
-/

namespace Timeslice

def HasInk (name : String) : Prop :=
  ∃ c ∈ name.toList, Text.isBlank c = false

theorem hasInk_iff (name : String) : HasInk name ↔ name.toList.all Text.isBlank = false := by
  simp [HasInk, List.all_eq_false]

theorem hasInk_of_isPlainName {name : String} (h : Predicate.isPlainName name.toList = true) :
    HasInk name := by
  unfold Predicate.isPlainName at h
  split at h
  · cases h
  · next c rest hname =>
    rw [Bool.and_eq_true] at h
    exact ⟨c, by simp [hname], Text.isBlank_of_startsName h.1⟩

namespace Statement

theorem mem_of_states {ts : List Token} {statement : Statement}
    (h : Grammar.States ts statement) : Token.name statement.table ∈ ts := by
  cases h with
  | select => simp [table]
  | describe => simp [table]

/-- A statement over a name without ink has the name in quotes in its text. -/
theorem table_of_read {text : String} {statement : Statement}
    (h : read text = .ok statement) :
    HasInk statement.table ∨ Quoted.enclose '"' statement.table.toList <:+: text.toList := by
  obtain ⟨ts, hts, h⟩ := Except.exists_of_bind h
  exact (Lexer.name_of_read hts (mem_of_states (ofTokens_iff.mp h))).imp_left hasInk_of_isPlainName

theorem read_quoted (name : String) :
    read (String.ofList ("SELECT * FROM ".toList ++ Quoted.enclose '"' name.toList)) =
      .ok (.select ⟨name, .all, none⟩) := by
  have hselect : Lexer.Lexes "SELECT".toList [.name "SELECT"] := by
    simpa using Lexer.lexes_plain (show Predicate.isPlainName "SELECT".toList = true by decide)
  have hstar : Lexer.Lexes "*".toList [.star] := Lexer.lexes_of_token (by decide) fun _ _ => rfl
  have hfrom : Lexer.Lexes "FROM".toList [.name "FROM"] := by
    simpa using Lexer.lexes_plain (show Predicate.isPlainName "FROM".toList = true by decide)
  have hname : Lexer.Lexes (Quoted.enclose '"' name.toList) [.name name] := by
    simpa using Lexer.lexes_quoted_name name.toList
  have hall := hselect.append_space (hstar.append_space (hfrom.append_space hname))
  have hread := hall.read (by simp)
  rw [read, show "SELECT * FROM ".toList ++ Quoted.enclose '"' name.toList =
    "SELECT".toList ++ ' ' :: ("*".toList ++ ' ' :: ("FROM".toList ++ ' ' ::
      Quoted.enclose '"' name.toList)) by simp, hread]
  rfl

end Statement

namespace Build

theorem checkTable_eq_ok_iff {kind : CommandKind} {table : String} :
    checkTable kind table = .ok () ↔ HasInk table := by
  rw [hasInk_iff, checkTable]
  split_ifs with h <;> simp [h]

theorem checkTable_of_not_hasInk {kind : CommandKind} {table : String} (h : ¬ HasInk table) :
    checkTable kind table = .error (.emptyTableName kind) := by
  rw [hasInk_iff, Bool.not_eq_false] at h
  rw [checkTable, if_pos h]

end Build

/-- No check of a schema but the one for the empty name looks at its name. -/
theorem Schema.check_rename {s : Schema} {name : String} (h : s.check = .ok ())
    (hname : name ≠ "") : ({ s with name } : Schema).check = .ok () := by
  have hempty : s.name ≠ "" := by
    intro hempty
    simp [Schema.check_eq_ok_iff, Schema.flaw?, Schema.nameFlaw?, hempty] at h
  have hflaw : ({ s with name } : Schema).nameFlaw? = s.nameFlaw? := by
    simp [Schema.nameFlaw?, hname, hempty]
  rw [Schema.check_eq_ok_iff] at h ⊢
  rw [Schema.flaw?, hflaw]
  exact h

inductive Construction where
  | createTable (schema : Schema)
  | store (table : String) (rows : List Row)
  | fetch (table : String) (key : List Cell)
  | delete (table : String) (key : List Cell)
  | listKeys (table : String) (allowed : Bool)
  | query (text : String)
  | describeTable (table : String)
  deriving DecidableEq

namespace Construction

def build : Construction → Except BuildFault Command
  | createTable schema => Build.createTable schema
  | store table rows => Build.store table rows
  | fetch table key => Build.fetch table key
  | delete table key => Build.delete table key
  | listKeys table allowed => Build.listKeys table allowed
  | query text => Build.query text
  | describeTable table => Build.describeTable table

def kind : Construction → CommandKind
  | createTable _ => .createTable
  | store _ _ => .store
  | fetch _ _ => .fetch
  | delete _ _ => .delete
  | listKeys _ _ => .listKeys
  | query _ => .query
  | describeTable _ => .describeTable

/-- The name of the table that the command is to find in the cluster, where it is handed over as
such. A schema brings the name of a table to come, and a query has its name in its text. -/
def address? : Construction → Option String
  | createTable _ => none
  | store table _ => some table
  | fetch table _ => some table
  | delete table _ => some table
  | listKeys table _ => some table
  | query _ => none
  | describeTable table => some table

end Construction

def CommandKind.Takes (name : String) : CommandKind → Prop
  | .createTable => name ≠ ""
  | .query => True
  | _ => HasInk name

namespace Build

theorem createTable_eq_ok {schema : Schema} {c : Command} (h : createTable schema = .ok c) :
    c = .createTable schema ∧ schema.check = .ok () := by
  obtain ⟨_, hcheck, h⟩ := Except.exists_of_bind h
  cases h
  exact ⟨rfl, Except.eq_ok_of_mapError hcheck⟩

theorem createTable_of_check {schema : Schema} (h : schema.check = .ok ()) :
    createTable schema = .ok (.createTable schema) := by
  rw [createTable, h]
  rfl

theorem query_eq_ok {text : String} {c : Command} (h : query text = .ok c) :
    ∃ statement, c = .query text statement ∧ Statement.read text = .ok statement := by
  obtain ⟨statement, hread, h⟩ := Except.exists_of_bind h
  cases h
  exact ⟨statement, rfl, Except.eq_ok_of_mapError hread⟩

theorem query_of_read {text : String} {statement : Statement}
    (h : Statement.read text = .ok statement) : query text = .ok (.query text statement) := by
  rw [query, h]
  rfl

theorem checkRows_ne_emptyTableName (kind : CommandKind) (table : String) (rows : List Row) :
    checkRows table rows ≠ .error (.emptyTableName kind) := by
  unfold checkRows
  split
  · simp
  · dsimp only
    split <;> simp

theorem checkKey_ne_emptyTableName (kind kind' : CommandKind) (table : String)
    (key : List Cell) : checkKey kind' table key ≠ .error (.emptyTableName kind) := by
  unfold checkKey
  split_ifs
  · simp
  · split <;> simp

end Build

namespace Construction

/-- What a builder does after its check of the table name does not fail for the name again. -/
structure Builds (k : Construction) (name : String) (rest : Except BuildFault Command) :
    Prop where
  build_eq : k.build = (Build.checkTable k.kind name).bind fun _ => rest
  ne_emptyTableName : ∀ kind, rest ≠ .error (.emptyTableName kind)
  table_eq : ∀ c, rest = .ok c → c.kind = k.kind ∧ c.table = name

theorem Builds.of_check {k : Construction} {name : String} {check : Except BuildFault Unit}
    {command : Command}
    (hbuild : k.build = (Build.checkTable k.kind name).bind fun _ => check.bind fun _ => .ok command)
    (hcheck : ∀ kind, check ≠ .error (.emptyTableName kind)) (hkind : command.kind = k.kind)
    (htable : command.table = name) : k.Builds name (check.bind fun _ => .ok command) := by
  refine ⟨hbuild, fun kind h => ?_, fun c h => ?_⟩
  · cases check with
    | error f => exact hcheck kind (congrArg Except.error (Except.error.inj h))
    | ok u => cases h
  · obtain ⟨_, _, h⟩ := Except.exists_of_bind h
    cases h
    exact ⟨hkind, htable⟩

theorem exists_builds {k : Construction} {name : String} (h : k.address? = some name) :
    ∃ rest, k.Builds name rest := by
  cases k with
  | createTable schema => cases h
  | query text => cases h
  | store table rows =>
    cases h
    exact ⟨_, .of_check rfl (fun kind => Build.checkRows_ne_emptyTableName kind _ rows) rfl rfl⟩
  | fetch table key =>
    cases h
    exact ⟨_, .of_check rfl (fun kind => Build.checkKey_ne_emptyTableName kind _ _ key) rfl rfl⟩
  | delete table key =>
    cases h
    exact ⟨_, .of_check rfl (fun kind => Build.checkKey_ne_emptyTableName kind _ _ key) rfl rfl⟩
  | describeTable table =>
    cases h
    have hcheck (kind : CommandKind) :
        (Except.ok () : Except BuildFault Unit) ≠ .error (.emptyTableName kind) := by rintro ⟨⟩
    exact ⟨_, .of_check rfl hcheck rfl rfl⟩
  | listKeys table allowed =>
    cases h
    refine ⟨(if allowed then .ok () else .error (.listingNotAllowed name) :
      Except BuildFault Unit).bind fun _ => .ok (.listKeys name), .of_check ?_ ?_ rfl rfl⟩
    · cases allowed <;> rfl
    · cases allowed <;> simp

/-- A builder that is handed a name refuses it as empty exactly when it has no ink. -/
theorem build_eq_emptyTableName_iff {k : Construction} {name : String}
    (h : k.address? = some name) :
    k.build = .error (.emptyTableName k.kind) ↔ ¬ HasInk name := by
  obtain ⟨rest, hrest⟩ := exists_builds h
  rw [hrest.build_eq]
  by_cases hink : HasInk name
  · rw [Build.checkTable_eq_ok_iff.mpr hink]
    exact iff_of_false (hrest.ne_emptyTableName k.kind) (not_not_intro hink)
  · rw [Build.checkTable_of_not_hasInk hink]
    exact iff_of_true rfl hink

theorem table_of_address {k : Construction} {c : Command} {name : String}
    (h : k.address? = some name) (hbuild : k.build = .ok c) : c.table = name ∧ HasInk name := by
  obtain ⟨rest, hrest⟩ := exists_builds h
  rw [hrest.build_eq] at hbuild
  obtain ⟨_, hcheck, hc⟩ := Except.exists_of_bind hbuild
  exact ⟨(hrest.table_eq c hc).2, Build.checkTable_eq_ok_iff.mp hcheck⟩

theorem kind_of_build {k : Construction} {c : Command} (h : k.build = .ok c) :
    c.kind = k.kind := by
  cases haddress : k.address? with
  | some name =>
    obtain ⟨rest, hrest⟩ := exists_builds haddress
    rw [hrest.build_eq] at h
    obtain ⟨_, _, hc⟩ := Except.exists_of_bind h
    exact (hrest.table_eq c hc).1
  | none =>
    cases k with
    | createTable schema =>
      rw [(Build.createTable_eq_ok h).1]
      rfl
    | query text =>
      obtain ⟨statement, rfl, -⟩ := Build.query_eq_ok h
      rfl
    | store | fetch | delete | listKeys | describeTable => cases haddress

theorem takes_of_build {k : Construction} {c : Command} (h : k.build = .ok c) :
    c.kind.Takes c.table := by
  rw [kind_of_build h]
  cases haddress : k.address? with
  | some name =>
    obtain ⟨htable, hink⟩ := table_of_address haddress h
    rw [← htable] at hink
    cases k <;> first | exact hink | cases haddress
  | none =>
    cases k with
    | createTable schema =>
      obtain ⟨rfl, hcheck⟩ := Build.createTable_eq_ok h
      intro hempty
      have hname : schema.name = "" := hempty
      simp [Schema.check_eq_ok_iff, Schema.flaw?, Schema.nameFlaw?, hname] at hcheck
    | query text => trivial
    | store | fetch | delete | listKeys | describeTable => cases haddress

theorem exists_build_of_takes {kind : CommandKind} {name : String} (h : kind.Takes name) :
    ∃ (k : Construction) (c : Command), k.build = .ok c ∧ c.kind = kind ∧ c.table = name := by
  have hcheck (kind' : CommandKind) (hink : HasInk name) :
      Build.checkTable kind' name = .ok () := Build.checkTable_eq_ok_iff.mpr hink
  cases kind with
  | createTable =>
    have hschema : Loads.schema.check = .ok () := by decide
    exact ⟨.createTable { Loads.schema with name }, _,
      Build.createTable_of_check (Schema.check_rename hschema h), rfl, rfl⟩
  | query => exact ⟨.query _, _, Build.query_of_read (Statement.read_quoted name), rfl, rfl⟩
  | store =>
    exact ⟨.store name [[]], .store name [[]], by simp only [build, Build.store, hcheck _ h]; rfl,
      rfl, rfl⟩
  | fetch =>
    exact ⟨.fetch name [.sint64 0], .fetch name [.sint64 0],
      by simp only [build, Build.fetch, hcheck _ h]; rfl, rfl, rfl⟩
  | delete =>
    exact ⟨.delete name [.sint64 0], .delete name [.sint64 0],
      by simp only [build, Build.delete, hcheck _ h]; rfl, rfl, rfl⟩
  | listKeys =>
    exact ⟨.listKeys name true, .listKeys name,
      by simp only [build, Build.listKeys, hcheck _ h]; rfl, rfl, rfl⟩
  | describeTable =>
    exact ⟨.describeTable name, .describeTable name,
      by simp only [build, Build.describeTable, hcheck _ h]; rfl, rfl, rfl⟩

/-- What the seven builders make of a table name. -/
structure Treats (name : String) : Prop where
  takes : ∀ kind : CommandKind,
    (∃ (k : Construction) (c : Command), k.build = .ok c ∧ c.kind = kind ∧ c.table = name) ↔
      kind.Takes name
  /-- A builder that is handed the name itself refuses it as empty exactly when it has no ink, and
  builds no command over another table. -/
  addresses : ∀ k : Construction, k.address? = some name →
    (k.build = .error (.emptyTableName k.kind) ↔ ¬ HasInk name) ∧
      ∀ c, k.build = .ok c → c.kind = k.kind ∧ c.table = name
  quotes : ∀ text c, Build.query text = .ok c → c.table = name →
    HasInk name ∨ Quoted.enclose '"' name.toList <:+: text.toList

/-- Every table name is treated in that way: a name of blanks can be created and queried, but no
other command can be built over it. -/
theorem treats (name : String) : Treats name where
  takes kind := by
    constructor
    · rintro ⟨k, c, hbuild, rfl, rfl⟩
      exact takes_of_build hbuild
    · exact exists_build_of_takes
  addresses k haddress :=
    ⟨build_eq_emptyTableName_iff haddress, fun c hbuild =>
      ⟨kind_of_build hbuild, (table_of_address haddress hbuild).1⟩⟩
  quotes text c hbuild htable := by
    obtain ⟨statement, rfl, hread⟩ := Build.query_eq_ok hbuild
    rw [← htable]
    exact Statement.table_of_read hread

/-- A schema with a blank for its name can be created, and a text can query the empty name. -/
theorem blank_names_built :
    ∃ schema text c d, Build.createTable schema = .ok c ∧ ¬ HasInk c.table ∧
      Build.query text = .ok d ∧ ¬ HasInk d.table := by
  refine ⟨{ Loads.schema with name := " " }, "SELECT * FROM \"\"", _, .query _ _,
    Build.createTable_of_check (by decide), ?_, Build.query_of_read (Statement.read_quoted ""), ?_⟩
  · rw [hasInk_iff]
    decide
  · rw [hasInk_iff]
    decide

end Construction

end Timeslice
