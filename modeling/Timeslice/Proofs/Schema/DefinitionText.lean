import Timeslice.Proofs.Query.Planning
import Timeslice.Proofs.Schema.Keying
import Timeslice.Proofs.Text.Joining
import Timeslice.Schema.Ddl

/-!
# Which schema a definition text defines

The text of a table definition has all that an accepted schema is made of. Its parts can be told
apart as long as no name of a column has a comma or an opening parenthesis; the table may have any
name. Names stand in the text without quotes, so with such characters two schemas can have one text.
-/

namespace Timeslice

namespace ColumnType

def word (t : ColumnType) : List Char :=
  t.text.toList.map Char.toUpper

theorem word_injective : Function.Injective word := by
  intro t u h
  cases t <;> cases u <;> first | rfl | exact absurd h (by decide)

theorem space_notMem_word (t : ColumnType) : ' ' ∉ t.word := by
  cases t <;> decide

theorem word_ne_null (t : ColumnType) : t.word ≠ "NULL".toList := by
  cases t <;> decide

theorem isSeparable_word (t : ColumnType) : Clauses.IsSeparable t.word := by
  cases t <;> decide

end ColumnType

namespace Column

def clause (c : Column) : List Char :=
  c.name.toList ++ ' ' :: c.type.word ++ if c.nullable then [] else " NOT NULL".toList

/-- A clause has the column's name, type and nullability, even if there are spaces in the name. -/
theorem clause_injective : Function.Injective clause := by
  have hword {name name' : String} {t t' : ColumnType}
      (h : name.toList ++ ' ' :: t.word = name'.toList ++ ' ' :: t'.word) :
      name = name' ∧ t = t' := by
    obtain ⟨hname, ht⟩ := split_last h t.space_notMem_word t'.space_notMem_word
    exact ⟨String.toList_inj.mp hname, ColumnType.word_injective ht⟩
  have hnull {name name' : String} {t t' : ColumnType} :
      name.toList ++ ' ' :: t.word ++ " NOT NULL".toList ≠ name'.toList ++ ' ' :: t'.word := by
    intro h
    have hlast : (name.toList ++ ' ' :: t.word ++ " NOT".toList) ++ ' ' :: "NULL".toList =
        name'.toList ++ ' ' :: t'.word := by
      rw [← h, List.append_assoc _ " NOT".toList]
      rfl
    exact t'.word_ne_null (split_last hlast (by decide) t'.space_notMem_word).2.symm
  rintro ⟨name, t, nullable⟩ ⟨name', t', nullable'⟩ h
  cases nullable <;> cases nullable' <;>
    simp only [clause, Bool.false_eq_true, if_false, if_true, List.append_nil] at h
  · obtain ⟨rfl, rfl⟩ := hword (List.append_cancel_right h)
    rfl
  · exact absurd h hnull
  · exact absurd h.symm hnull
  · obtain ⟨rfl, rfl⟩ := hword h
    rfl

theorem isSeparable_clause {c : Column} (h : Clauses.IsSeparable c.name.toList) :
    Clauses.IsSeparable c.clause := by
  have hspace : Clauses.IsSeparable [' '] := by decide
  have htail : Clauses.IsSeparable (if c.nullable then [] else " NOT NULL".toList) := by
    cases c.nullable <;> decide
  exact (h.append (hspace.append c.type.isSeparable_word)).append htail

end Column

namespace Schema

variable {s s' : Schema} {ordinal : TableColumn → Option UInt32} {columns : List TableColumn}
  {n m : Nat}

section Columns

def ordinalIn (names : List String) (name : String) : Option UInt32 :=
  if name ∈ names then some (UInt32.ofNat (names.idxOf name + 1)) else none

def withKeys (localNames partitionNames : List String) (time : String) (q : Quantum)
    (c : Column) : TableColumn :=
  ⟨c, ordinalIn partitionNames c.name, ordinalIn localNames c.name,
    if c.name = time then some q else none⟩

theorem nodup_keyNames (hnames : (columns.map (·.name)).Nodup)
    (ordinal : TableColumn → Option UInt32) :
    ((keyed ordinal columns).map (·.name)).Nodup :=
  ((perm_keyed ordinal columns).map _).nodup_iff.mpr (hnames.sublist (List.filter_sublist.map _))

theorem CountsTo.ordinalIn_eq (h : CountsTo ordinal columns n)
    (hnames : (columns.map (·.name)).Nodup) {c : TableColumn} (hc : c ∈ columns) :
    ordinalIn ((keyed ordinal columns).map (·.name)) c.name = ordinal c := by
  rw [ordinalIn]
  cases hordinal : ordinal c with
  | none =>
    refine if_neg fun hin => ?_
    obtain ⟨d, hd, hname⟩ := List.mem_map.mp hin
    obtain ⟨hmem, hsome⟩ := mem_keyed.mp hd
    rw [List.inj_on_of_nodup_map hnames hmem hc hname, hordinal] at hsome
    cases hsome
  | some o =>
    have hin := mem_keyed.mpr ⟨hc, Option.isSome_of_mem hordinal⟩
    rw [if_pos (List.mem_map_of_mem hin)]
    obtain ⟨i, hi⟩ := List.mem_iff_getElem?.mp hin
    have hplace : o.toNat = i + 1 := by
      simpa [hordinal] using (h.getElem?_keyed_iff.mp hi).2
    obtain ⟨hlt, rfl⟩ := List.getElem?_eq_some_iff.mp hi
    have hfirst := (nodup_keyNames hnames ordinal).idxOf_getElem i (by rwa [List.length_map])
    rw [List.getElem_map] at hfirst
    rw [hfirst, ← hplace, UInt32.ofNat_toNat]

structure TimedAt (s : Schema) (before : List TableColumn) (c : TableColumn) (q : Quantum)
    (after : List TableColumn) : Prop where
  partitionKey_eq : s.partitionKey = before ++ c :: after
  quantum : c.quantum? = some q
  untimed : ∀ d ∈ s.columns, d ≠ c → d.quantum? = none

variable {before after before' after' : List TableColumn} {c c' : TableColumn} {q q' : Quantum}

theorem IsWellKeyed.exists_timedAt (h : s.IsWellKeyed n m) :
    ∃ before c q after, s.TimedAt before c q after := by
  obtain ⟨c, hc, q, hq, hin, -, -, honly⟩ := h.quantum
  obtain ⟨before, after, hkey⟩ := List.append_of_mem (mem_keyed.mpr ⟨hc, hin⟩ : c ∈ s.partitionKey)
  refine ⟨before, c, q, after, hkey, hq, fun d hd hne => ?_⟩
  rw [← Option.not_isSome_iff_eq_none]
  exact fun hsome => hne (honly d hd hsome)

theorem TimedAt.mem (ht : s.TimedAt before c q after) {d : TableColumn}
    (hd : d ∈ before ++ c :: after) : d ∈ s.columns := by
  rw [← ht.partitionKey_eq] at hd
  exact (mem_keyed.mp hd).1

theorem TimedAt.untimed_around (ht : s.TimedAt before c q after) (h : s.IsWellKeyed n m) :
    ∀ d ∈ before ++ after, d.quantum? = none := by
  have hnodup := (nodup_keyNames h.distinct TableColumn.partitionOrdinal?).of_map
  rw [show keyed TableColumn.partitionOrdinal? s.columns = before ++ c :: after from
    ht.partitionKey_eq, List.nodup_middle, List.nodup_cons] at hnodup
  intro d hd
  refine ht.untimed d (ht.mem ?_) fun heq => hnodup.1 (heq ▸ hd)
  rcases List.mem_append.mp hd with hd | hd
  · exact List.mem_append_left _ hd
  · exact List.mem_append_right _ (List.mem_cons_of_mem _ hd)

theorem IsWellKeyed.partitionKey_prefix (h : s.IsWellKeyed n m) :
    s.partitionKey <+: s.localKey := by
  refine List.prefix_iff_getElem?.mpr fun i hi => ?_
  obtain ⟨hc, hordinal⟩ :=
    h.partitionOrdinals.getElem?_keyed_iff.mp (List.getElem?_eq_getElem hi)
  refine h.localOrdinals.getElem?_keyed_iff.mpr ⟨hc, ?_⟩
  rw [h.leads _ hc (mem_keyed.mp (List.getElem_mem hi)).2]
  exact hordinal

theorem TimedAt.exists_localKey_eq (ht : s.TimedAt before c q after) (h : s.IsWellKeyed n m) :
    ∃ rest, s.localKey = before ++ c :: (after ++ rest) := by
  obtain ⟨rest, hrest⟩ := h.partitionKey_prefix
  refine ⟨rest, ?_⟩
  rw [← hrest, ht.partitionKey_eq, List.append_assoc]
  rfl

theorem TimedAt.head?_localKey (ht : s.TimedAt before c q after) (h : s.IsWellKeyed n m) :
    (s.localKey.map (·.name)).head? = (before.map (·.name) ++ [c.name]).head? := by
  obtain ⟨rest, hrest⟩ := ht.exists_localKey_eq h
  rw [hrest, List.map_append, List.head?_append, List.head?_append]
  rfl

theorem TimedAt.map_name_partitionKey (ht : s.TimedAt before c q after)
    (h : s.IsWellKeyed n m) : s.partitionKey.map (·.name) =
      (s.localKey.map (·.name)).take (before.length + (after.length + 1)) := by
  refine (List.prefix_iff_eq_take.mp (h.partitionKey_prefix.map (·.name))).trans ?_
  rw [List.length_map, ht.partitionKey_eq, List.length_append, List.length_cons]

/-- The columns of an accepted schema are known from what they are without their places in the keys,
the names in the keys, the name of the time column and its quantum. -/
theorem IsWellKeyed.columns_eq (h : s.IsWellKeyed n m) (ht : s.TimedAt before c q after) :
    s.columns = s.plainColumns.map
      (withKeys (s.localKey.map (·.name)) (s.partitionKey.map (·.name)) c.name q) := by
  rw [plainColumns, List.map_map]
  refine (List.map_id s.columns).symm.trans (List.map_congr_left fun d hd => ?_)
  have hquantum : d.quantum? = if d.name = c.name then some q else none := by
    split_ifs with hname
    · rw [List.inj_on_of_nodup_map h.distinct hd (ht.mem (by simp)) hname, ht.quantum]
    · exact ht.untimed d hd fun heq => hname (by rw [heq])
  rw [Function.comp_apply, withKeys, localKey, partitionKey,
    h.localOrdinals.ordinalIn_eq h.distinct hd, h.partitionOrdinals.ordinalIn_eq h.distinct hd,
    ← hquantum]
  rfl

end Columns

section Text

open Clauses

variable {before after before' after' : List TableColumn} {c c' : TableColumn} {q q' : Quantum}

/-- The names of columns can be told apart from what stands around them. -/
def HasSeparableNames (s : Schema) : Prop :=
  ∀ c ∈ s.columns, IsSeparable c.name.toList

instance (s : Schema) : Decidable s.HasSeparableNames :=
  inferInstanceAs (Decidable (∀ c ∈ s.columns, IsSeparable c.name.toList))

def spelledNames (columns : List TableColumn) : List (List Char) :=
  (columns.map (·.name)).map String.toList

def unitClause (u : TimeUnit) : List Char :=
  ['\'', u.code, '\'', ')']

theorem toList_listed (clauses : List String) :
    (listed clauses).toList = joined (clauses.map String.toList) :=
  String.toList_intercalate

theorem toList_columnClause (c : TableColumn) : (columnClause c).toList = c.clause := by
  rw [columnClause, Column.clause]
  split_ifs <;> simp [ColumnType.word]

theorem toList_partitionClause_of_none (h : c.quantum? = none) :
    (partitionClause c).toList = c.name.toList := by
  rw [partitionClause, h]

theorem toList_partitionClause_of_some (h : c.quantum? = some q) :
    (partitionClause c).toList = "QUANTUM".toList ++
      '(' :: joined [c.name.toList, Numeral.digits q.interval.toNat, unitClause q.unit] := by
  rw [partitionClause, h, joined_cons _ (by simp), joined_cons _ (by simp), joined_singleton]
  simp [Numeral.natText, unitClause]

theorem toList_partitionKey (ht : s.TimedAt before c q after) (h : s.IsWellKeyed n m)
    (rest : List Char) :
    (listed (s.partitionKey.map partitionClause)).toList ++ ')' :: rest =
      joined (spelledNames before ++ ["QUANTUM".toList]) ++
        '(' :: (joined (c.name.toList :: Numeral.digits q.interval.toNat ::
          closed (unitClause q.unit) (spelledNames after)) ++ rest) := by
  have huntimed := ht.untimed_around h
  have hspelled {columns : List TableColumn} (hcolumns : ∀ d ∈ columns, d.quantum? = none) :
      (columns.map partitionClause).map String.toList = spelledNames columns := by
    rw [spelledNames, List.map_map, List.map_map]
    exact List.map_congr_left fun d hd => toList_partitionClause_of_none (hcolumns d hd)
  rw [toList_listed, ht.partitionKey_eq, List.map_append, List.map_append, List.map_cons,
    List.map_cons, hspelled fun d hd => huntimed d (List.mem_append_left _ hd),
    hspelled fun d hd => huntimed d (List.mem_append_right _ hd),
    toList_partitionClause_of_some ht.quantum, joined_splice _ _ _ (List.cons_ne_nil _ _),
    show c.name.toList :: Numeral.digits q.interval.toNat ::
      closed (unitClause q.unit) (spelledNames after) =
        [c.name.toList, Numeral.digits q.interval.toNat] ++
          closed (unitClause q.unit) (spelledNames after) from rfl, joined_append_closed,
    List.append_assoc, List.append_assoc]
  rfl

theorem TimedAt.spelledNames_localKey_ne_nil (ht : s.TimedAt before c q after)
    (h : s.IsWellKeyed n m) : spelledNames s.localKey ≠ [] := by
  obtain ⟨rest, hrest⟩ := ht.exists_localKey_eq h
  simp [spelledNames, hrest]

/-- What stands in a definition between its first two opening parentheses. -/
def columnClauses (s : Schema) : List (List Char) :=
  s.plainColumns.map Column.clause ++ ["PRIMARY KEY ".toList]

/-- What stands in front of the last opening parenthesis. -/
def seriesClauses (before : List TableColumn) : List (List Char) :=
  spelledNames before ++ ["QUANTUM".toList]

/-- What stands behind the last opening parenthesis, but for the two that close. -/
def keyClauses (s : Schema) (c : TableColumn) (q : Quantum) (after : List TableColumn) :
    List (List Char) :=
  c.name.toList :: Numeral.digits q.interval.toNat ::
    (closed (unitClause q.unit) (spelledNames after) ++ spelledNames s.localKey)

theorem toList_ddl (ht : s.TimedAt before c q after) (h : s.IsWellKeyed n m) :
    s.ddl.toList = "CREATE TABLE ".toList ++ s.name.toList ++ [' '] ++
      '(' :: joined s.columnClauses ++ '(' :: [] ++ '(' :: joined (seriesClauses before) ++
      '(' :: joined (s.keyClauses c q after) ++ "))".toList := by
  have hclauses : (s.columns.map columnClause).map String.toList =
      s.plainColumns.map Column.clause := by
    rw [plainColumns, List.map_map, List.map_map]
    exact List.map_congr_left fun d _ => toList_columnClause d
  have hcolumns : s.plainColumns.map Column.clause ≠ [] := by
    simpa [plainColumns] using h.columns
  have hlocal := ht.spelledNames_localKey_ne_nil h
  have hpartition : s.keyClauses c q after =
        (c.name.toList :: Numeral.digits q.interval.toNat ::
          closed (unitClause q.unit) (spelledNames after)) ++ spelledNames s.localKey := rfl
  have hparts : s.ddl.toList = "CREATE TABLE ".toList ++ s.name.toList ++ " (".toList ++
      joined (s.plainColumns.map Column.clause) ++ ", PRIMARY KEY ((".toList ++
      (listed (s.partitionKey.map partitionClause)).toList ++ "), ".toList ++
      joined (spelledNames s.localKey) ++ "))".toList := by
    rw [← hclauses, spelledNames, ← toList_listed, ← toList_listed]
    unfold ddl
    simp only [String.toList_append]
  have hopen : " (".toList = [' ', '('] := rfl
  have hprimary : ", PRIMARY KEY ((".toList =
      ',' :: ' ' :: "PRIMARY KEY ".toList ++ ['(', '('] := rfl
  have hclose : "), ".toList = [')', ',', ' '] := rfl
  rw [hparts, columnClauses, joined_append hcolumns (List.cons_ne_nil _ _), joined_singleton,
    hpartition, joined_append (List.cons_ne_nil _ _) hlocal, hopen, hprimary, hclose]
  generalize "CREATE TABLE ".toList = create, "PRIMARY KEY ".toList = primary, "))".toList = close
  simp only [List.append_assoc, List.cons_append, List.nil_append, toList_partitionKey ht h,
    seriesClauses]

theorem HasSeparableNames.spelledNames (hnames : s.HasSeparableNames)
    (hcolumns : ∀ d ∈ columns, d ∈ s.columns) : AreSeparable (spelledNames columns) := by
  intro x hx
  rw [Schema.spelledNames, List.map_map] at hx
  obtain ⟨d, hd, rfl⟩ := List.mem_map.mp hx
  exact hnames d (hcolumns d hd)

theorem HasSeparableNames.columnClauses (hnames : s.HasSeparableNames) :
    AreSeparable s.columnClauses := by
  refine AreSeparable.append (fun x hx => ?_) (areSeparable_singleton (by decide))
  rw [plainColumns, List.map_map] at hx
  obtain ⟨d, hd, rfl⟩ := List.mem_map.mp hx
  exact Column.isSeparable_clause (hnames d hd)

theorem TimedAt.separable_seriesClauses (ht : s.TimedAt before c q after)
    (hnames : s.HasSeparableNames) : AreSeparable (seriesClauses before) :=
  (hnames.spelledNames fun _ hd => ht.mem (List.mem_append_left _ hd)).append
    (areSeparable_singleton (by decide))

theorem TimedAt.separable_keyClauses (ht : s.TimedAt before c q after)
    (hnames : s.HasSeparableNames) : AreSeparable (s.keyClauses c q after) := by
  have hunit : IsSeparable (unitClause q.unit) := by
    cases q.unit <;> decide
  have hdigits : IsSeparable (Numeral.digits q.interval.toNat) :=
    ⟨fun h => absurd (Numeral.isDigit_of_mem_digits h) (by decide),
      fun h => absurd (Numeral.isDigit_of_mem_digits h) (by decide)⟩
  have hafter := hnames.spelledNames fun d (hd : d ∈ after) =>
    ht.mem (List.mem_append_right _ (List.mem_cons_of_mem _ hd))
  have hlocal := hnames.spelledNames fun d (hd : d ∈ s.localKey) => (mem_keyed.mp hd).1
  exact (((hafter.cons hunit).closed.append hlocal).cons hdigits).cons (hnames c (ht.mem (by simp)))

theorem map_name_eq_of_spelledNames_eq {columns' : List TableColumn}
    (h : spelledNames columns = spelledNames columns') :
    columns.map (·.name) = columns'.map (·.name) :=
  List.map_injective_iff.mpr (fun _ _ => String.toList_inj.mp) h

theorem quantum_eq (hdigits : Numeral.digits q.interval.toNat = Numeral.digits q'.interval.toNat)
    {xs ys : List (List Char)}
    (hunit : closed (unitClause q.unit) xs = closed (unitClause q'.unit) ys) : q = q' := by
  have hinterval : q.interval = q'.interval := by
    rw [← UInt32.toNat_inj, ← Numeral.value_digits q.interval.toNat, hdigits, Numeral.value_digits]
  obtain ⟨y, rest, hy⟩ := prefix_head_closed (unitClause q.unit) xs
  obtain ⟨y', rest', hy'⟩ := prefix_head_closed (unitClause q'.unit) ys
  rw [hy, hy', List.cons.injEq] at hunit
  have hcode : q.unit.code = q'.unit.code ∧ y = y' := by simpa [unitClause] using hunit.1
  have hsame : q.unit = q'.unit := by
    cases hu : q.unit <;> cases hu' : q'.unit <;> rw [hu, hu'] at hcode <;>
      first | rfl | exact absurd hcode.1 (by decide)
  cases q
  cases q'
  simp_all

/-- The parts of a definition are told apart by its last four opening parentheses. -/
theorem parts_of_ddl_eq {n' m' : Nat} (h : s.IsWellKeyed n m) (h' : s'.IsWellKeyed n' m')
    (ht : s.TimedAt before c q after) (ht' : s'.TimedAt before' c' q' after')
    (hnames : s.HasSeparableNames) (hnames' : s'.HasSeparableNames) (heq : s.ddl = s'.ddl) :
    s.name = s'.name ∧ s.columnClauses = s'.columnClauses ∧
      seriesClauses before = seriesClauses before' ∧
      s.keyClauses c q after = s'.keyClauses c' q' after' := by
  have hcolumns := hnames.columnClauses
  have hcolumns' := hnames'.columnClauses
  have hseries := ht.separable_seriesClauses hnames
  have hseries' := ht'.separable_seriesClauses hnames'
  have hkeys := ht.separable_keyClauses hnames
  have hkeys' := ht'.separable_keyClauses hnames'
  have htext := congrArg String.toList heq
  rw [toList_ddl ht h, toList_ddl ht' h'] at htext
  obtain ⟨htext, hlast⟩ := split_last (List.append_cancel_right htext)
    hkeys.paren_notMem_joined hkeys'.paren_notMem_joined
  obtain ⟨htext, hthird⟩ := split_last htext
    hseries.paren_notMem_joined hseries'.paren_notMem_joined
  obtain ⟨htext, -⟩ := split_last htext List.not_mem_nil List.not_mem_nil
  obtain ⟨htext, hfirst⟩ := split_last htext
    hcolumns.paren_notMem_joined hcolumns'.paren_notMem_joined
  refine ⟨?_, hcolumns.eq_of_joined_eq hcolumns' ?_ ?_ hfirst,
    hseries.eq_of_joined_eq hseries' ?_ ?_ hthird,
    hkeys.eq_of_joined_eq hkeys' (List.cons_ne_nil _ _) (List.cons_ne_nil _ _) hlast⟩
  · exact String.toList_inj.mp (List.append_cancel_left (List.append_cancel_right htext))
  all_goals simp [columnClauses, seriesClauses]

/-- Where the partition key ends is not marked, but the local key begins with a name that is known
by then, and has it only once. -/
theorem keys_of_keyClauses_eq {n' m' : Nat} (h : s.IsWellKeyed n m) (h' : s'.IsWellKeyed n' m')
    (ht : s.TimedAt before c q after) (ht' : s'.TimedAt before' c' q' after')
    (hbefore : before.map (·.name) = before'.map (·.name))
    (heq : s.keyClauses c q after = s'.keyClauses c' q' after') :
    c.name = c'.name ∧ q = q' ∧ s.localKey.map (·.name) = s'.localKey.map (·.name) ∧
      s.partitionKey.map (·.name) = s'.partitionKey.map (·.name) := by
  rw [keyClauses, keyClauses, List.cons.injEq, List.cons.injEq, String.toList_inj] at heq
  obtain ⟨htime, hdigits, hkeys⟩ := heq
  have hnodup {s : Schema} {n m : Nat} (h : s.IsWellKeyed n m) : (spelledNames s.localKey).Nodup :=
    (nodup_keyNames h.distinct _).map fun _ _ => String.toList_inj.mp
  have hfirst : (s.localKey.map (·.name)).head? = (s'.localKey.map (·.name)).head? := by
    rw [ht.head?_localKey h, ht'.head?_localKey h', hbefore, htime]
  have hhead : (spelledNames s.localKey).head? = (spelledNames s'.localKey).head? :=
    List.head?_map.trans ((congrArg (Option.map String.toList) hfirst).trans List.head?_map.symm)
  obtain ⟨hclosed, hspelled⟩ :=
    eq_of_append_eq_of_head? (hnodup h) (hnodup h') (ht.spelledNames_localKey_ne_nil h) hhead hkeys
  have hlocal := map_name_eq_of_spelledNames_eq hspelled
  have hlength : before.length = before'.length := by simpa using congrArg List.length hbefore
  have hlength' : after.length = after'.length := by
    simpa [length_closed, spelledNames] using congrArg List.length hclosed
  refine ⟨htime, quantum_eq hdigits hclosed, hlocal, ?_⟩
  rw [ht.map_name_partitionKey h, ht'.map_name_partitionKey h', hlocal, hlength, hlength']

/-- A definition text is that of one schema, among those that are accepted and have separable
names. -/
theorem ddl_eq_iff (h : s.check = .ok ()) (h' : s'.check = .ok ()) (hnames : s.HasSeparableNames)
    (hnames' : s'.HasSeparableNames) : s.ddl = s'.ddl ↔ s = s' := by
  refine ⟨fun heq => ?_, fun heq => by rw [heq]⟩
  obtain ⟨n, m, h⟩ := check_iff_isWellKeyed.mp h
  obtain ⟨n', m', h'⟩ := check_iff_isWellKeyed.mp h'
  obtain ⟨before, c, q, after, ht⟩ := h.exists_timedAt
  obtain ⟨before', c', q', after', ht'⟩ := h'.exists_timedAt
  obtain ⟨hname, hclauses, hseries, hkeys⟩ := parts_of_ddl_eq h h' ht ht' hnames hnames' heq
  have hplain : s.plainColumns = s'.plainColumns :=
    List.map_injective_iff.mpr Column.clause_injective (List.append_cancel_right hclauses)
  obtain ⟨htime, hquantum, hlocal, hpartition⟩ := keys_of_keyClauses_eq h h' ht ht'
    (map_name_eq_of_spelledNames_eq (List.append_cancel_right hseries)) hkeys
  have hcolumns : s.columns = s'.columns := by
    rw [h.columns_eq ht, h'.columns_eq ht', hplain, hlocal, hpartition, htime, hquantum]
  cases s
  cases s'
  exact congrArg₂ Schema.mk hname hcolumns

end Text

end Schema

namespace Loads

def ofSites (place : Option UInt32) : Schema :=
  ⟨"loads", schema.columns ++ [⟨⟨"site", .varchar, false⟩, place, some 3, none⟩]⟩

theorem ddl_of_sites_eq_iff :
    (ofSites none).check = .ok () ∧ (ofSites (some 3)).check = .ok () ∧
      (ofSites none).HasSeparableNames ∧ (ofSites (some 3)).HasSeparableNames ∧
      ((ofSites none).ddl = (ofSites (some 3)).ddl ↔ ofSites none = ofSites (some 3)) ∧
      ofSites none ≠ ofSites (some 3) :=
  have h : (ofSites none).check = .ok () := by decide +kernel
  have h' : (ofSites (some 3)).check = .ok () := by decide +kernel
  have hnames : (ofSites none).HasSeparableNames := by decide +kernel
  have hnames' : (ofSites (some 3)).HasSeparableNames := by decide +kernel
  ⟨h, h', hnames, hnames', Schema.ddl_eq_iff h h' hnames hnames', by decide⟩

def remark (name : String) (type : ColumnType) : TableColumn :=
  ⟨⟨name, type, true⟩, none, none, none⟩

/-- The name of one column stands for two columns, or the name of a table for the beginning of its
columns. -/
theorem ddl_of_other_schema :
    let wide : Schema := ⟨"loads", schema.columns ++ [remark "note VARCHAR, mark" .sint64]⟩
    let split : Schema :=
      ⟨"loads", schema.columns ++ [remark "note" .varchar, remark "mark" .sint64]⟩
    let nested : Schema := ⟨"loads", remark "note VARCHAR (mark" .sint64 :: schema.columns⟩
    let renamed : Schema := ⟨"loads (note VARCHAR", remark "mark" .sint64 :: schema.columns⟩
    (wide.check = .ok () ∧ split.check = .ok () ∧ wide.ddl = split.ddl ∧ wide ≠ split) ∧
      nested.check = .ok () ∧ renamed.check = .ok () ∧ nested.ddl = renamed.ddl ∧
        nested ≠ renamed := by
  decide +kernel

end Loads

end Timeslice
