import PoolIndexer.Proofs.Basic
import PoolIndexer.Table.Row

/-!
# Proofs.Table.Row — the rows that a table takes

* `Schema.nodup_names`, `Schema.nodup_columns`: a name stands for one table, and in a table for one column.
* `Column.Takes`, `Table.Takes`: what a column and a table take, said without the check of rows.
* `Row.check_eq_ok_iff`: the check hands on, unchanged, exactly the rows that a registered table takes.
* `Row.check_exact`: those rows, and what they hold under each name.  A column may be named twice, and then its
  later value cannot be read (`Row.check_repeatedColumn`).
-/

namespace PoolIndexer

/-! ### Names of tables -/

namespace Schema

theorem nodup_names : (Schema.tables.map Table.name).Nodup := by decide +kernel

theorem nodup_columns : ∀ t ∈ Schema.tables, (t.columns.map Column.name).Nodup := by decide +kernel

theorem table?_eq_some_iff {name : String} {t : Table} :
    table? name = some t ↔ t ∈ tables ∧ t.name = name :=
  find?_key_eq_some_iff nodup_names

end Schema

/-! ### What columns and tables take -/

/-- The type of the columns that take the value; nothing tells where a null belongs. -/
def Value.type? : Value → Option ColumnType
  | .bigint _ => some .bigint
  | .text _ => some .text
  | .bytes _ => some .bytea
  | .bool _ => some .boolean
  | .null => none

/-- A value of the type of the column, or a null where the column may be null. -/
def Column.Takes (c : Column) (v : Value) : Prop :=
  v.type? = some c.type ∨ v = .null ∧ c.nullable = true

theorem Value.fits_iff {v : Value} {c : Column} : v.fits c.type c.nullable = true ↔ c.Takes v := by
  cases v with
  | null => simp [fits, Column.Takes, type?]
  | _ => simpa [fits, Column.Takes, type?] using eq_comm

theorem Value.fits_of_type? {v : Value} {type : ColumnType} (h : v.type? = some type) (nullable : Bool) :
    v.fits type nullable = true := by
  cases v <;> cases h <;> rfl

/-- As many values as names, each name that of a column which takes the value, and no column left out that
must not be null. -/
structure Table.Takes (t : Table) (columns : List String) (values : List Value) : Prop where
  length : columns.length = values.length
  cells : ∀ cell ∈ columns.zip values, ∃ c ∈ t.columns, c.name = cell.1 ∧ c.Takes cell.2
  required : ∀ c ∈ t.columns, c.nullable = false → c.name ∈ columns

theorem Table.column?_eq_some_iff {t : Table} (hnames : (t.columns.map Column.name).Nodup) {name : String}
    {c : Column} : t.column? name = some c ↔ c ∈ t.columns ∧ c.name = name :=
  find?_key_eq_some_iff hnames

namespace Row

variable {t : Table}

theorem checkCell_eq_ok_iff (hnames : (t.columns.map Column.name).Nodup) {cell : String × Value} :
    checkCell t cell = .ok () ↔ ∃ c ∈ t.columns, c.name = cell.1 ∧ c.Takes cell.2 := by
  have hfound : (∃ c ∈ t.columns, c.name = cell.1 ∧ c.Takes cell.2) ↔
      ∃ c, t.column? cell.1 = some c ∧ c.Takes cell.2 := by
    simp only [Table.column?_eq_some_iff hnames, and_assoc]
  rw [hfound]
  unfold checkCell
  cases t.column? cell.1 with
  | none => simp
  | some c => by_cases hfits : cell.2.fits c.type c.nullable = true <;> simp [hfits, ← Value.fits_iff]

theorem missing?_eq_none_iff {columns : List String} :
    missing? t columns = none ↔ ∀ c ∈ t.columns, c.nullable = false → c.name ∈ columns := by
  simp [missing?]

/-- What a table takes, as the three checks in their order. -/
theorem takes_iff (hnames : (t.columns.map Column.name).Nodup) {columns : List String} {values : List Value} :
    t.Takes columns values ↔ columns.length = values.length ∧
      (columns.zip values).forM (checkCell t) = .ok () ∧ missing? t columns = none := by
  rw [forM_eq_ok_iff, missing?_eq_none_iff]
  simp only [checkCell_eq_ok_iff hnames]
  constructor
  · exact fun h => ⟨h.length, h.cells, h.required⟩
  · exact fun ⟨hlength, hcells, hrequired⟩ => ⟨hlength, hcells, hrequired⟩

/-- **Check**: a row is handed on as it is if a registered table of its name takes it, and refused otherwise. -/
theorem check_eq_ok_iff {table : String} {columns : List String} {values : List Value} {row : Row} :
    Row.check table columns values = .ok row ↔
      row = ⟨table, columns, values⟩ ∧ ∃ t ∈ Schema.tables, t.name = table ∧ t.Takes columns values := by
  have hfound : (∃ t ∈ Schema.tables, t.name = table ∧ t.Takes columns values) ↔
      ∃ t, Schema.table? table = some t ∧ t.Takes columns values := by
    simp only [Schema.table?_eq_some_iff, and_assoc]
  rw [hfound]
  unfold Row.check
  cases htable : Schema.table? table with
  | none => simp
  | some t =>
    have hnames := Schema.nodup_columns t (Schema.table?_eq_some_iff.1 htable).1
    simp only [Option.some.injEq, exists_eq_left', takes_iff hnames]
    by_cases hlength : columns.length = values.length
    · rw [if_neg (not_not.2 hlength)]
      cases (columns.zip values).forM (checkCell t) with
      | error e => simp
      | ok _ => cases missing? t columns <;> simp [hlength, eq_comm]
    · rw [if_pos hlength]
      simp [hlength]

theorem eq_of_check {table : String} {columns : List String} {values : List Value} {row : Row}
    (h : Row.check table columns values = .ok row) : row = ⟨table, columns, values⟩ :=
  (check_eq_ok_iff.1 h).1

/-- **Acceptance**: a row is taken if and only if a registered table of its name takes it, and it is taken as it
is.  Then every name reads the value at its first position; where no column is named twice, every position reads
its own value. -/
theorem check_exact (table : String) (columns : List String) (values : List Value) :
    ((∃ row, Row.check table columns values = .ok row) ↔
      ∃ t ∈ Schema.tables, t.name = table ∧ t.Takes columns values) ∧
    ∀ row, Row.check table columns values = .ok row →
      row = ⟨table, columns, values⟩ ∧ (∀ name, row.get? name = values[columns.idxOf name]?) ∧
      (columns.Nodup → ∀ i (hi : i < columns.length), row.get? columns[i] = values[i]?) := by
  refine ⟨?_, fun row hrow => ?_⟩
  · simp only [check_eq_ok_iff, exists_eq_left]
  · obtain ⟨rfl, t, -, -, htakes⟩ := check_eq_ok_iff.1 hrow
    have hget : ∀ name, get? ⟨table, columns, values⟩ name = values[columns.idxOf name]? :=
      fun name => lookup_zip (Nat.le_of_eq htakes.length.symm) name
    refine ⟨rfl, hget, fun hdistinct i hi => ?_⟩
    rw [hget, hdistinct.idxOf_getElem]

/-- A block of the ledger in another order of columns and without the one that may be null. -/
theorem check_exact_withoutState :
    ∃ row, Row.check "block_log" ["hash", "height", "timestamp"] [.bytes [6], .bigint 7, .bigint 9] = .ok row ∧
      row.get? "height" = some (.bigint 7) ∧ row.get? "agg_state" = none := by
  obtain ⟨haccepts, hreads⟩ := check_exact "block_log" ["hash", "height", "timestamp"]
    [.bytes [6], .bigint 7, .bigint 9]
  have htakes : Table.blockLog.Takes ["hash", "height", "timestamp"] [.bytes [6], .bigint 7, .bigint 9] := by
    refine ⟨rfl, ?_, by decide⟩
    simp [Table.blockLog, Table.required, Column.Takes, Value.type?]
  obtain ⟨row, hrow⟩ := haccepts.2 ⟨Table.blockLog, List.mem_cons_self, rfl, htakes⟩
  obtain ⟨-, hget, -⟩ := hreads row hrow
  exact ⟨row, hrow, hget "height", hget "agg_state"⟩

/-- A row that names a column twice is taken, and the later value cannot be read. -/
theorem check_repeatedColumn :
    let columns := ["asset", "status", "event_id", "block_timestamp", "asset"]
    let values := [Value.text "a", .text "b", .bigint 1, .bigint 2, .text "again"]
    ¬ columns.Nodup ∧ ∃ row, Row.check "pool_events" columns values = .ok row ∧
      columns[4]? = some "asset" ∧ values[4]? = some (.text "again") ∧ row.get? "asset" = some (.text "a") :=
  ⟨by decide, _, rfl, rfl, rfl, rfl⟩

end Row

end PoolIndexer
