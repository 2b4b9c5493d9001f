import PoolIndexer.Proofs.Sql.Database

/-!
# Proofs.Sql.Batches — rows written by few statements

The rows of one write are ordered by table and cut into runs of one shape, each of which goes into one statement.

* `filter_byTable`: the rows of a table keep their order.
* `inserts_addInRow`, `length_params_le`: the statements add all rows, and none has too many parameters.
* `executeAll_insertions`: one step after the other, they are all taken, or one of them is refused.
* `writeRows_exact`: a write adds every row once or nothing at all, in one transaction.
-/

namespace PoolIndexer

namespace Sql

/-! ### Rows by table -/

theorem perm_byTable (rows : List Row) : (byTable rows).Perm rows := List.mergeSort_perm _ _

/-- Ordering by table is stable, so it does not touch the order inside a table. -/
theorem filter_byTable (rows : List Row) (table : String) :
    (byTable rows).filter (·.table = table) = rows.filter (·.table = table) := by
  have hequal : (rows.filter (·.table = table)).Pairwise fun a b => decide (a.table ≤ b.table) = true := by
    refine List.pairwise_of_forall_mem_list fun a ha b hb => ?_
    have ha' : a.table = table := by simpa using (List.mem_filter.1 ha).2
    have hb' : b.table = table := by simpa using (List.mem_filter.1 hb).2
    simp [ha', hb']
  have hsorted : (rows.filter (·.table = table)).Sublist (byTable rows) := by
    refine List.sublist_mergeSort (fun a b c hab hbc => ?_) (fun a b => ?_) hequal List.filter_sublist
    · simp only [decide_eq_true_eq] at hab hbc ⊢
      exact String.le_trans hab hbc
    · simpa using String.le_total a.table b.table
  have hsublist := hsorted.filter (·.table = table)
  rw [List.filter_filter] at hsublist
  simp only [Bool.and_self] at hsublist
  exact (hsublist.eq_of_length ((perm_byTable rows).filter _).length_eq.symm).symm

/-! ### Runs -/

theorem sameShape_of_mem_splitRun {first r : Row} {limit : Nat} {rows : List Row}
    (h : r ∈ (splitRun first limit rows).1) : r.sameShape first = true := by
  induction limit generalizing rows with
  | zero => simp [splitRun] at h
  | succ limit ih =>
    cases rows with
    | nil => simp [splitRun] at h
    | cons r' rows =>
      by_cases hshape : r'.sameShape first = true
      · simp only [splitRun, hshape, if_true] at h
        rcases List.mem_cons.1 h with rfl | hrest
        · exact hshape
        · exact ih hrest
      · simp [splitRun, hshape] at h

theorem length_run_le (first : Row) (limit : Nat) (rows : List Row) :
    (splitRun first limit rows).1.length ≤ limit := by
  induction limit generalizing rows with
  | zero => simp [splitRun]
  | succ limit ih =>
    cases rows with
    | nil => simp [splitRun]
    | cons r' rows =>
      by_cases hshape : r'.sameShape first = true
      · simpa [splitRun, hshape] using ih rows
      · simp [splitRun, hshape]

theorem length_params_insert {first : Row} {more : List Row} (hshape : ∀ r ∈ more, r.sameShape first = true)
    (hfull : ∀ r ∈ first :: more, r.IsFull) :
    (insert first more).params.length = (more.length + 1) * first.columns.length := by
  have hlengths : ∀ r ∈ first :: more, (rowParameters r).length = first.columns.length := by
    refine List.forall_mem_cons.2 ⟨length_rowParameters (hfull _ List.mem_cons_self), fun r hr => ?_⟩
    rw [length_rowParameters (hfull r (List.mem_cons_of_mem _ hr)), (sameShape_iff.1 (hshape r hr)).2]
  rw [params_insert, List.length_flatMap, List.map_congr_left hlengths]
  simp [Nat.succ_mul, Nat.add_comm]

/-- As many rows as the limit allows stay within the parameters of a statement, if one of them does. -/
theorem rowLimit_mul_le {r : Row} (h : r.columns.length ≤ maxParameters) :
    rowLimit r * r.columns.length ≤ maxParameters := by
  unfold rowLimit
  by_cases hwidth : r.columns.length = 0
  · simp [hwidth]
  · have hpositive : 0 < r.columns.length := Nat.pos_of_ne_zero hwidth
    rw [Nat.max_eq_left hpositive, Nat.max_eq_left ((Nat.one_le_div_iff hpositive).2 h)]
    exact Nat.div_mul_le_self _ _

/-! ### Statements -/

section

variable {rows : List Row} (hfull : ∀ r ∈ rows, r.IsFull)
include hfull

/-- The statements add the rows in their order. -/
theorem inserts_addInRow : AddsInRow (inserts rows) rows := by
  induction rows using inserts.induct with
  | case1 => exact ⟨[], by simp [inserts], rfl⟩
  | case2 first rest ih =>
    have hsplit := splitRun_append first (rowLimit first - 1) rest
    have hrest : ∀ r ∈ (splitRun first (rowLimit first - 1) rest).2, r.IsFull := fun r hr =>
      hfull r (List.mem_cons_of_mem _ (hsplit ▸ List.mem_append_right _ hr))
    have hrun : ∀ r ∈ first :: (splitRun first (rowLimit first - 1) rest).1, r.IsFull := by
      refine List.forall_mem_cons.2 ⟨hfull _ List.mem_cons_self, fun r hr => ?_⟩
      exact hfull r (List.mem_cons_of_mem _ (hsplit ▸ List.mem_append_left _ hr))
    obtain ⟨parts, hparts, hflatten⟩ := ih hrest
    rw [inserts]
    refine ⟨_ :: parts, .cons (adds_insert (fun r hr => sameShape_of_mem_splitRun hr) hrun) hparts, ?_⟩
    rw [List.flatten_cons, hflatten, List.cons_append, hsplit]

theorem length_params_le (hwidth : ∀ r ∈ rows, r.columns.length ≤ maxParameters) :
    ∀ stmt ∈ inserts rows, stmt.params.length ≤ maxParameters := by
  induction rows using inserts.induct with
  | case1 => simp [inserts]
  | case2 first rest ih =>
    have hsplit := splitRun_append first (rowLimit first - 1) rest
    have hmem : ∀ r ∈ (splitRun first (rowLimit first - 1) rest).2, r ∈ first :: rest := fun r hr =>
      List.mem_cons_of_mem _ (hsplit ▸ List.mem_append_right _ hr)
    have hmem' : ∀ r ∈ (splitRun first (rowLimit first - 1) rest).1, r ∈ first :: rest := fun r hr =>
      List.mem_cons_of_mem _ (hsplit ▸ List.mem_append_left _ hr)
    rw [inserts]
    refine List.forall_mem_cons.2 ⟨?_, ih (fun r hr => hfull r (hmem r hr)) (fun r hr => hwidth r (hmem r hr))⟩
    have hlength := length_params_insert (fun r hr => sameShape_of_mem_splitRun hr)
      (List.forall_mem_cons.2 ⟨hfull _ List.mem_cons_self, fun r hr => hfull r (hmem' r hr)⟩)
    have hrun := length_run_le first (rowLimit first - 1) rest
    have hlimit : 1 ≤ rowLimit first := Nat.le_max_right _ _
    rw [hlength]
    calc ((splitRun first (rowLimit first - 1) rest).1.length + 1) * first.columns.length
        ≤ rowLimit first * first.columns.length := Nat.mul_le_mul_right _ (by omega)
      _ ≤ maxParameters := rowLimit_mul_le (hwidth _ List.mem_cons_self)

end

theorem command?_of_mem_inserts (rows : List Row) : ∀ stmt ∈ inserts rows, stmt.command? = some .insert := by
  induction rows using inserts.induct with
  | case1 => simp [inserts]
  | case2 first rest ih =>
    rw [inserts]
    exact List.forall_mem_cons.2 ⟨command?_insert _ _, ih⟩

/-! ### The transaction -/

section

variable (refuses : Database → Statement → Option String)

open Database Exchange

/-- **All insertions are taken, or one is refused** and the transaction stays open. -/
theorem executeAll_insertions {stmts : List Statement} (h : ∀ stmt ∈ stmts, stmt.command? = some .insert)
    (stored insertions : List Statement) (log : List (Statement × Option String)) :
    executeAll (server refuses) stmts ⟨stored, some ⟨insertions, [], false⟩, log⟩ =
        (.ok (), ⟨stored, some ⟨insertions ++ stmts, [], false⟩, log ++ stmts.map fun stmt => (stmt, none)⟩) ∨
      ∃ e t log', executeAll (server refuses) stmts ⟨stored, some ⟨insertions, [], false⟩, log⟩ =
        (.error e, ⟨stored, some t, log'⟩) ∧ ∃ stmt ∈ stmts, ∃ db, refuses db stmt ≠ none := by
  induction stmts generalizing insertions log with
  | nil =>
    refine .inl ?_
    rw [List.append_nil, List.map_nil, List.append_nil]
    rfl
  | cons stmt stmts ih =>
    obtain ⟨hstmt, hstmts⟩ := List.forall_mem_cons.1 h
    have hexecute := execute_insertion refuses stored insertions [] log hstmt
    cases hrefusal : refuses ⟨stored, some ⟨insertions, [], false⟩, log⟩ stmt with
    | none =>
      rw [hrefusal] at hexecute
      have hrest := ih hstmts (insertions ++ [stmt]) (log ++ [(stmt, none)])
      rw [List.append_assoc insertions, List.append_assoc log] at hrest
      rw [executeAll, bind_of_ok hexecute]
      refine hrest.imp_right ?_
      rintro ⟨e, t, log', hmore, stmt', hmem, hrefused⟩
      exact ⟨e, t, log', hmore, stmt', List.mem_cons_of_mem _ hmem, hrefused⟩
    | some text =>
      rw [hrefusal] at hexecute
      rw [executeAll, bind_of_error hexecute]
      exact .inr ⟨_, _, _, rfl, stmt, List.mem_cons_self, _, hrefusal ▸ Option.some_ne_none text⟩

/-- The database after the insertions of one transaction. -/
def Database.committed (db : Database) (stmts : List Statement) : Database :=
  ⟨db.stored ++ stmts, none, db.log ++ (begin :: stmts ++ [commit]).map fun stmt => (stmt, none)⟩

/-- A write commits all of its statements or leaves nothing behind. -/
theorem writeRows_cases (rows : List Row) {db : Database} (hdb : db.transaction = none) :
    writeRows (server refuses) rows db = (.ok (), db.committed (inserts (byTable rows))) ∨
      ∃ e db', writeRows (server refuses) rows db = (.error e, db') ∧ db'.stored = db.stored ∧
        db'.transaction = none ∧ ∃ stmt ∈ inserts (byTable rows), ∃ db, refuses db stmt ≠ none := by
  obtain ⟨stored, transaction, log⟩ := db
  obtain rfl : transaction = none := hdb
  have hbegin := execute_begin refuses stored log
  rcases executeAll_insertions refuses (command?_of_mem_inserts (byTable rows)) stored []
    (log ++ [(begin, none)]) with hall | ⟨e, t, log', hall, hrefused⟩
  · have hcommit := execute_commit refuses stored (inserts (byTable rows)) []
      (log ++ [(begin, none)] ++ (inserts (byTable rows)).map fun stmt => (stmt, none))
    refine .inl (undo_of_ok ?_)
    refine (bind_of_ok hbegin _).trans ((bind_of_ok hall _).trans (hcommit.trans ?_))
    simp [Database.committed]
  · have hend := bind_of_error hall fun _ => execute (server refuses) commit
    exact .inr ⟨e, _, undo_of_error ((bind_of_ok hbegin _).trans hend), rfl, rfl, hrefused⟩

end

/-! ### Writes -/

/-- **A write loses and reorders nothing.**  The statements of its one transaction add every row once, the rows
of a table in their order, and none of them has more than 65000 parameters.  All of them are committed, or
nothing is because one of them was refused.  So a database and a store in memory that hold the same rows of every
table still do after the same write. -/
theorem writeRows_exact {rows : List Row} (hrows : ∀ r ∈ rows, r.IsFull ∧ r.columns.length ≤ 65000) :
    ∃ stmts sorted, AddsInRow stmts sorted ∧ (∀ stmt ∈ stmts, stmt.params.length ≤ 65000) ∧ sorted.Perm rows ∧
      (∀ table, sorted.filter (·.table = table) = rows.filter (·.table = table)) ∧
      (∀ refuses (db : Database), db.transaction = none →
        writeRows (Database.server refuses) rows db = (.ok (), db.committed stmts) ∨
          ∃ e db', writeRows (Database.server refuses) rows db = (.error e, db') ∧ db'.stored = db.stored ∧
            db'.transaction = none ∧ ∃ stmt ∈ stmts, ∃ db, refuses db stmt ≠ none) ∧
      ∀ (db : Database) (s s' : Store), db.SameRows s → s.write rows = .ok s' → (db.committed stmts).SameRows s' := by
  have hsorted : ∀ r ∈ byTable rows, r.IsFull ∧ r.columns.length ≤ 65000 :=
    fun r hr => hrows r ((perm_byTable rows).mem_iff.1 hr)
  have hfull : ∀ r ∈ byTable rows, r.IsFull := fun r hr => (hsorted r hr).1
  have hadds := inserts_addInRow hfull
  refine ⟨inserts (byTable rows), byTable rows, hadds, length_params_le hfull fun r hr => (hsorted r hr).2,
    perm_byTable rows, filter_byTable rows, fun refuses db hdb => writeRows_cases refuses rows hdb,
    fun db s s' hsame hwrite => ?_⟩
  have hs' : s'.rows = s.rows ++ rows := by
    unfold Store.write at hwrite
    split at hwrite
    · cases hwrite
    · cases hwrite
      rfl
  exact hsame.append rfl hs' hadds (filter_byTable rows)

/-- Rows of two tables, those of one of them apart. -/
def twoTables : List Row :=
  [⟨"swaps", ["pool", "memo"], [.text "A", .null]⟩, ⟨"pools", ["pool"], [.text "A"]⟩,
    ⟨"swaps", ["pool", "memo"], [.text "B", .text "="]⟩]

theorem writeRows_exact_twoTables :
    ∃ stmts sorted, AddsInRow stmts sorted ∧ (∀ stmt ∈ stmts, stmt.params.length ≤ 65000) ∧
      sorted.filter (·.table = "swaps") =
        [⟨"swaps", ["pool", "memo"], [.text "A", .null]⟩, ⟨"swaps", ["pool", "memo"], [.text "B", .text "="]⟩] ∧
      writeRows (Database.server fun _ _ => none) twoTables .empty = (.ok (), Database.empty.committed stmts) := by
  have hfull : ∀ r ∈ twoTables, r.IsFull ∧ r.columns.length ≤ 65000 := by simp [twoTables, Row.IsFull]
  obtain ⟨stmts, sorted, hadds, hparams, -, hfilter, hwrite, -⟩ := writeRows_exact hfull
  refine ⟨stmts, sorted, hadds, hparams, hfilter "swaps", ?_⟩
  rcases hwrite (fun _ _ => none) .empty rfl with hok | ⟨-, -, -, -, -, stmt, -, db, hrefused⟩
  · exact hok
  · exact absurd rfl hrefused

end Sql

end PoolIndexer
