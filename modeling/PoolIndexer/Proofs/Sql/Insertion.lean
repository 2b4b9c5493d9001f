import Mathlib.Data.List.Forall2
import PoolIndexer.Proofs.Basic
import PoolIndexer.Sql.Statement

/-!
# Proofs.Sql.Insertion — the rows that a statement adds

An insertion names a table and a list of columns, and has one group of places for each row.  A place is the
number of a parameter.

* `Insertion.render`: the text of an insertion.
* `Insertion.rows?`: the rows that it adds, out of the parameters.
* `Statement.Adds`: the rows of a statement by its text and its parameters.
* `adds_insert`: the statement for rows of one shape adds these rows.
-/

namespace PoolIndexer

/-- There is a value for each column. -/
def Row.IsFull (r : Row) : Prop := r.columns.length = r.values.length

namespace Sql

/-! ### Insertions -/

structure Insertion where
  table : String
  columns : List String
  /-- The numbers of the parameters for each row; the first parameter has the number one. -/
  groups : List (List Nat)

/-- The value that a parameter stands for. -/
def Parameter.stored : Parameter → Value
  | .value v => v
  | .null _ => .null

/-- The value of the parameter of that number. -/
def valueAt (params : List Parameter) : Nat → Option Value
  | 0 => none
  | n + 1 => (params[n]?).map Parameter.stored

namespace Insertion

def placeText (place : Nat) : String := "$" ++ Text.Decimal.showNat place

def groupText (group : List Nat) : String := "(" ++ ", ".intercalate (group.map placeText) ++ ")"

def render (i : Insertion) : String :=
  "INSERT INTO " ++ i.table ++ " (" ++ ", ".intercalate i.columns ++ ") VALUES " ++
    ", ".intercalate (i.groups.map groupText)

theorem render_eq (i : Insertion) : i.render = "INSERT INTO " ++ i.table ++ " (" ++ ", ".intercalate i.columns ++
    ") VALUES " ++ ", ".intercalate (i.groups.map groupText) := rfl

/-- The row of one group: a parameter for each column. -/
def row? (i : Insertion) (params : List Parameter) (group : List Nat) : Option Row :=
  if group.length = i.columns.length then
    (group.mapM (valueAt params)).map fun values => ⟨i.table, i.columns, values⟩
  else none

def rows? (i : Insertion) (params : List Parameter) : Option (List Row) := i.groups.mapM (i.row? params)

end Insertion

/-- The text of the statement is an insertion, and the rows are those that it adds with the parameters. -/
def Statement.Adds (stmt : Statement) (rows : List Row) : Prop :=
  ∃ i : Insertion, stmt.text = i.render ∧ i.rows? stmt.params = some rows

/-- The rows that several statements add one after the other. -/
def AddsInRow (stmts : List Statement) (rows : List Row) : Prop :=
  ∃ parts : List (List Row), List.Forall₂ Statement.Adds stmts parts ∧ parts.flatten = rows

theorem AddsInRow.append {stmts stmts' : List Statement} {rows rows' : List Row} (h : AddsInRow stmts rows)
    (h' : AddsInRow stmts' rows') : AddsInRow (stmts ++ stmts') (rows ++ rows') := by
  obtain ⟨parts, hparts, rfl⟩ := h
  obtain ⟨parts', hparts', rfl⟩ := h'
  exact ⟨parts ++ parts', List.rel_append hparts hparts', List.flatten_append⟩

/-! ### The statement for rows of one shape -/

@[simp] theorem stored_parameter (table : String) (cell : String × Value) : (parameter table cell).stored = cell.2 := by
  obtain ⟨column, v⟩ := cell
  cases v <;> rfl

/-- A group of successive places gets the values of the parameters there. -/
theorem mapM_valueAt (before params after : List Parameter) :
    (List.range' (before.length + 1) params.length).mapM (valueAt (before ++ params ++ after)) =
      some (params.map Parameter.stored) := by
  induction params generalizing before with
  | nil => rfl
  | cons p params ih =>
    have hp : valueAt (before ++ p :: params ++ after) (before.length + 1) = some p.stored := by
      simp [valueAt]
    have hrest := ih (before ++ [p])
    rw [List.length_append, List.length_singleton, List.append_assoc before, List.singleton_append] at hrest
    rw [List.length_cons, List.range'_succ, List.mapM_cons, hp, hrest]
    rfl

/-- The insertion of `count` rows of one shape: the places are numbered through. -/
def Insertion.ofShape (table : String) (columns : List String) (count : Nat) : Insertion :=
  ⟨table, columns, (List.range count).map fun i => List.range' (i * columns.length + 1) columns.length⟩

theorem groupText_range' (n w : Nat) : Insertion.groupText (List.range' n w) = places n w := by
  rw [List.range'_eq_map_range, places, Insertion.groupText, List.map_map]
  rfl

theorem text_insert (first : Row) (more : List Row) :
    (insert first more).text = (Insertion.ofShape first.table first.columns (first :: more).length).render := by
  have hgroups : ((List.range (first :: more).length).map fun i =>
        places (i * first.columns.length + 1) first.columns.length) =
      (Insertion.ofShape first.table first.columns (first :: more).length).groups.map Insertion.groupText := by
    simp [Insertion.ofShape, groupText_range']
  exact congrArg (fun groups => "INSERT INTO " ++ first.table ++ " (" ++ ", ".intercalate first.columns ++
    ") VALUES " ++ ", ".intercalate groups) hgroups

theorem params_insert (first : Row) (more : List Row) :
    (insert first more).params = (first :: more).flatMap rowParameters := rfl

theorem length_rowParameters {r : Row} (h : r.IsFull) : (rowParameters r).length = r.columns.length := by
  have hlengths : r.columns.length = r.values.length := h
  simp [rowParameters, ← hlengths]

theorem stored_rowParameters {r : Row} (h : r.IsFull) : (rowParameters r).map Parameter.stored = r.values := by
  have hlengths : r.columns.length = r.values.length := h
  have hstored : Parameter.stored ∘ parameter r.table = Prod.snd := funext fun cell => stored_parameter r.table cell
  rw [rowParameters, List.map_map, hstored, List.map_snd_zip (Nat.le_of_eq hlengths.symm)]

/-- A row is found again in its parameters, wherever these stand. -/
theorem row?_rowParameters (before after : List Parameter) {i : Insertion} {r : Row} (htable : r.table = i.table)
    (hcolumns : r.columns = i.columns) (hfull : r.IsFull) :
    i.row? (before ++ rowParameters r ++ after) (List.range' (before.length + 1) i.columns.length) = some r := by
  have hvalues := mapM_valueAt before (rowParameters r) after
  rw [length_rowParameters hfull, stored_rowParameters hfull, hcolumns] at hvalues
  rw [Insertion.row?, hvalues, List.length_range', if_pos rfl, ← htable, ← hcolumns]
  rfl

/-- So are rows of one shape that follow each other: each group begins where the one before it ends. -/
theorem mapM_row? {i : Insertion} {rows : List Row} (htable : ∀ r ∈ rows, r.table = i.table)
    (hcolumns : ∀ r ∈ rows, r.columns = i.columns) (hfull : ∀ r ∈ rows, r.IsFull) (before : List Parameter) :
    ((List.range rows.length).map fun k =>
        List.range' (before.length + k * i.columns.length + 1) i.columns.length).mapM
      (i.row? (before ++ rows.flatMap rowParameters)) = some rows := by
  induction rows generalizing before with
  | nil => rfl
  | cons r rows ih =>
    obtain ⟨htable, htables⟩ := List.forall_mem_cons.1 htable
    obtain ⟨hcolumns, hothers⟩ := List.forall_mem_cons.1 hcolumns
    obtain ⟨hfull, hfulls⟩ := List.forall_mem_cons.1 hfull
    have hfirst := row?_rowParameters before (rows.flatMap rowParameters) htable hcolumns hfull
    have hrest := ih htables hothers hfulls (before ++ rowParameters r)
    rw [List.append_assoc, ← List.flatMap_cons] at hfirst hrest
    have hplaces : (fun k => List.range' (before.length + k * i.columns.length + 1) i.columns.length) ∘ Nat.succ =
        fun k => List.range' ((before ++ rowParameters r).length + k * i.columns.length + 1) i.columns.length := by
      funext k
      rw [Function.comp_apply, List.length_append, length_rowParameters hfull, hcolumns, Nat.succ_mul]
      congr 1
      omega
    rw [List.length_cons, List.range_succ_eq_map, List.map_cons, List.map_map, hplaces, List.mapM_cons,
      Nat.zero_mul, Nat.add_zero, hfirst, hrest]
    rfl

theorem sameShape_iff {a b : Row} : a.sameShape b = true ↔ a.table = b.table ∧ a.columns = b.columns := by
  simp [Row.sameShape]

/-- **One statement adds all of its rows**, if they have one shape and a value for each column. -/
theorem adds_insert {first : Row} {more : List Row} (hshape : ∀ r ∈ more, r.sameShape first = true)
    (hfull : ∀ r ∈ first :: more, r.IsFull) : (insert first more).Adds (first :: more) := by
  have hshapes : ∀ r ∈ first :: more, r.table = first.table ∧ r.columns = first.columns :=
    List.forall_mem_cons.2 ⟨⟨rfl, rfl⟩, fun r hr => sameShape_iff.1 (hshape r hr)⟩
  have hrows := mapM_row? (i := .ofShape first.table first.columns (first :: more).length)
    (fun r hr => (hshapes r hr).1) (fun r hr => (hshapes r hr).2) hfull []
  refine ⟨_, text_insert first more, ?_⟩
  rw [params_insert]
  simpa [Insertion.rows?, Insertion.ofShape] using hrows

end Sql

end PoolIndexer
