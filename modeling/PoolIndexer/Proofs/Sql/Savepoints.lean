import PoolIndexer.Proofs.Sql.Database

/-!
# Proofs.Sql.Savepoints — groups of rows in one session

A session writes groups of rows, each under a savepoint of the same name.  The savepoint of a refused group is
left behind, so savepoints pile up; but a group sets one of its own before it releases or rolls back to one, and
that is the innermost of the name.

* `Database.InSession`: an open transaction that takes statements, whatever savepoints are left in it.
* `writeGroup_cases`: one group is taken, or it is undone because a row was refused.
* `inSession_each`: a session after any groups holds those that were taken.
* `stageInto`, `each_stageInto`: the same for a session of the store in memory.
* `session_exact`: both sessions commit the groups that they took.
-/

namespace PoolIndexer

/-! ### Groups that were taken -/

/-- The rows of the groups that were taken. -/
def acceptedRows (groups : List (List Row)) (taken : List Bool) : List Row :=
  ((groups.zip taken).filter (·.2)).flatMap (·.1)

theorem acceptedRows_cons_true (group : List Row) (groups : List (List Row)) (taken : List Bool) :
    acceptedRows (group :: groups) (true :: taken) = group ++ acceptedRows groups taken := rfl

theorem acceptedRows_cons_false (group : List Row) (groups : List (List Row)) (taken : List Bool) :
    acceptedRows (group :: groups) (false :: taken) = acceptedRows groups taken := rfl

namespace Store

/-- A group for a session in memory; what is refused leaves the session as it was. -/
def stageInto (s : Store) (group : List Row) : Exchange StoreError (List Row) Unit := fun staged =>
  match s.stage staged group with
  | .ok staged' => (.ok (), staged')
  | .error e => (.error e, staged)

theorem stageInto_cases (s : Store) (group staged : List Row) :
    s.stageInto group staged = (.ok (), staged ++ group) ∨ ∃ e, s.stageInto group staged = (.error e, staged) := by
  unfold stageInto stage
  cases s.refusal? group with
  | none => exact .inl rfl
  | some e => exact .inr ⟨e, rfl⟩

/-- A session in memory holds the groups that it took, whatever the store did between them. -/
theorem each_stageInto (calls : List (Store × List Row)) (staged : List Row) :
    (Exchange.each (calls.map fun c => c.1.stageInto c.2) staged).2 = staged ++ acceptedRows (calls.map (·.2))
      ((Exchange.each (calls.map fun c => c.1.stageInto c.2) staged).1.map Except.isOk) := by
  induction calls generalizing staged with
  | nil => exact (List.append_nil staged).symm
  | cons c calls ih =>
    rw [List.map_cons, List.map_cons, Exchange.each_cons, List.map_cons]
    rcases stageInto_cases c.1 c.2 staged with hok | ⟨e, herror⟩
    · rw [hok]
      dsimp only [Except.isOk, Except.toBool]
      rw [ih, acceptedRows_cons_true, List.append_assoc]
    · rw [herror]
      dsimp only [Except.isOk, Except.toBool]
      rw [ih, acceptedRows_cons_false]

end Store

namespace Sql

/-- The statement for one row. -/
def insertOne (r : Row) : Statement := insert r []

theorem addsInRow_insertOne {rows : List Row} (hfull : ∀ r ∈ rows, r.IsFull) :
    AddsInRow (rows.map insertOne) rows := by
  induction rows with
  | nil => exact ⟨[], .nil, rfl⟩
  | cons r rows ih =>
    obtain ⟨hr, hrows⟩ := List.forall_mem_cons.1 hfull
    have hone : (insertOne r).Adds [r] := adds_insert (by simp) (by simpa using hr)
    exact AddsInRow.append ⟨[[r]], .cons hone .nil, rfl⟩ (ih hrows)

/-- The transaction is open and takes statements; `insertions` is what it would commit. -/
def Database.InSession (db : Database) (stored insertions : List Statement) : Prop :=
  db.stored = stored ∧ ∃ savepoints, db.transaction = some ⟨insertions, savepoints, false⟩

/-! ### One group -/

section

variable (refuses : Database → Statement → Option String)

open Database Exchange

/-- A row is taken, or the insertions since the innermost savepoint are undone. -/
theorem insertInGroup_eq (r : Row) (stored insertions before : List Statement) (savepoints : List Savepoint)
    (log : List (Statement × Option String)) :
    insertInGroup (server refuses) r ⟨stored, some ⟨insertions, ⟨eventRows, before⟩ :: savepoints, false⟩, log⟩ =
      match refuses ⟨stored, some ⟨insertions, ⟨eventRows, before⟩ :: savepoints, false⟩, log⟩ (insertOne r) with
      | none => (.ok (), ⟨stored, some ⟨insertions ++ [insertOne r], ⟨eventRows, before⟩ :: savepoints, false⟩,
          log ++ [(insertOne r, none)]⟩)
      | some text => (.error (.rowRejected r.table (refusalText text)),
          ⟨stored, some ⟨before, ⟨eventRows, before⟩ :: savepoints, false⟩,
            log ++ [(insertOne r, some text)] ++ [(rollbackTo, none)]⟩) := by
  have hinsert := execute_insertion refuses stored insertions (⟨eventRows, before⟩ :: savepoints) log
    (command?_insert r [])
  unfold insertInGroup Exchange.orElse
  rw [hinsert]
  unfold insertOne
  cases refuses ⟨stored, some ⟨insertions, ⟨eventRows, before⟩ :: savepoints, false⟩, log⟩ (insert r []) with
  | none => rfl
  | some text => exact bind_of_ok (execute_rollbackTo ..) _

/-- All rows of a group are taken one after the other, or the first refused one undoes the group. -/
theorem insertGroup_cases (rows : List Row) (stored insertions before : List Statement) (savepoints : List Savepoint)
    (log : List (Statement × Option String)) :
    (insertGroup (server refuses) rows ⟨stored, some ⟨insertions, ⟨eventRows, before⟩ :: savepoints, false⟩, log⟩ =
        (.ok (), ⟨stored, some ⟨insertions ++ rows.map insertOne, ⟨eventRows, before⟩ :: savepoints, false⟩,
          log ++ rows.map fun r => (insertOne r, none)⟩) ∧
      ∀ r ∈ rows, ∃ db, refuses db (insertOne r) = none) ∨
    ∃ r ∈ rows, ∃ text sent,
      insertGroup (server refuses) rows ⟨stored, some ⟨insertions, ⟨eventRows, before⟩ :: savepoints, false⟩, log⟩ =
        (.error (.rowRejected r.table (refusalText text)),
          ⟨stored, some ⟨before, ⟨eventRows, before⟩ :: savepoints, false⟩, log ++ sent⟩) ∧
      (insertOne r, some text) ∈ sent ∧ ∃ db, refuses db (insertOne r) = some text := by
  induction rows generalizing insertions log with
  | nil =>
    refine .inl ⟨?_, fun r hr => absurd hr List.not_mem_nil⟩
    rw [List.map_nil, List.map_nil, List.append_nil, List.append_nil]
    rfl
  | cons r rows ih =>
    have hfirst := insertInGroup_eq refuses r stored insertions before savepoints log
    cases hrefusal : refuses ⟨stored, some ⟨insertions, ⟨eventRows, before⟩ :: savepoints, false⟩, log⟩
      (insertOne r) with
    | none =>
      rw [hrefusal] at hfirst
      rw [insertGroup, bind_of_ok hfirst]
      rcases ih (insertions ++ [insertOne r]) (log ++ [(insertOne r, none)]) with
        ⟨hrest, hnone⟩ | ⟨r', hr', text, sent, hrest, hsent, hsome⟩
      · rw [List.append_assoc insertions, List.append_assoc log] at hrest
        exact .inl ⟨hrest, List.forall_mem_cons.2 ⟨⟨_, hrefusal⟩, hnone⟩⟩
      · rw [List.append_assoc log] at hrest
        exact .inr ⟨r', List.mem_cons_of_mem _ hr', text, _, hrest, List.mem_append_right _ hsent, hsome⟩
    | some text =>
      rw [hrefusal] at hfirst
      rw [insertGroup, bind_of_error hfirst, List.append_assoc log]
      exact .inr ⟨r, List.mem_cons_self, text, _, rfl, List.mem_append_left _ (List.mem_singleton_self _), _, hrefusal⟩

/-- **One group** is taken whole and nothing was refused, or a row was refused and nothing of the group is left.
The session goes on either way. -/
theorem writeGroup_cases {db : Database} {stored insertions : List Statement} (h : db.InSession stored insertions)
    (group : List Row) :
    (∃ db' sent, writeGroup (server refuses) group db = (.ok (), db') ∧
      db'.InSession stored (insertions ++ group.map insertOne) ∧ db'.log = db.log ++ sent ∧
      (∀ entry ∈ sent, entry.2 = none) ∧ ∀ r ∈ group, ∃ db, refuses db (insertOne r) = none) ∨
    ∃ r ∈ group, ∃ text db' sent, writeGroup (server refuses) group db =
        (.error (.rowRejected r.table (refusalText text)), db') ∧
      db'.InSession stored insertions ∧ db'.log = db.log ++ sent ∧ (insertOne r, some text) ∈ sent ∧
      ∃ db, refuses db (insertOne r) = some text := by
  obtain ⟨rfl, savepoints, htransaction⟩ := h
  obtain ⟨stored, transaction, log⟩ := db
  obtain rfl : transaction = some ⟨insertions, savepoints, false⟩ := htransaction
  have hset := execute_savepoint refuses stored insertions savepoints log
  unfold writeGroup
  rw [bind_of_ok hset]
  rcases insertGroup_cases refuses group stored insertions insertions savepoints (log ++ [(savepoint, none)]) with
    ⟨hall, hnone⟩ | ⟨r, hr, text, sent, hrefused, hsent, hsome⟩
  · have hrelease := execute_release refuses stored (insertions ++ group.map insertOne) savepoints
      (log ++ [(savepoint, none)] ++ group.map fun r => (insertOne r, none)) insertions
    rw [bind_of_ok hall, hrelease]
    refine .inl ⟨_, (savepoint, none) :: (group.map fun r => (insertOne r, none)) ++ [(release, none)], rfl,
      ⟨rfl, savepoints, rfl⟩, by simp, ?_, hnone⟩
    simp only [List.mem_append, List.mem_cons, List.mem_map, List.not_mem_nil, or_false]
    rintro _ ((rfl | ⟨r, -, rfl⟩) | rfl) <;> rfl
  · rw [bind_of_error hrefused]
    exact .inr ⟨r, hr, text, _, (savepoint, none) :: sent, rfl, ⟨rfl, _, rfl⟩, by simp,
      List.mem_cons_of_mem _ hsent, hsome⟩

/-! ### Sessions -/

/-- **A session after any groups** holds those that were taken, in order. -/
theorem inSession_each {db : Database} {stored insertions : List Statement} (h : db.InSession stored insertions)
    (groups : List (List Row)) :
    (each (groups.map (writeGroup (server refuses))) db).2.InSession stored (insertions ++ (acceptedRows groups
      ((each (groups.map (writeGroup (server refuses))) db).1.map Except.isOk)).map insertOne) := by
  induction groups generalizing db insertions with
  | nil =>
    rw [List.map_nil, acceptedRows, List.zip_nil_left, List.filter_nil, List.flatMap_nil, List.map_nil,
      List.append_nil]
    exact h
  | cons group groups ih =>
    rw [List.map_cons, each_cons, List.map_cons]
    rcases writeGroup_cases refuses h group with
      ⟨db', -, htaken, hnext, -⟩ | ⟨r, -, text, db', -, hrefused, hnext, -⟩
    · rw [htaken]
      have hrest := ih hnext
      rw [List.append_assoc, ← List.map_append] at hrest
      exact hrest
    · rw [hrefused]
      exact ih hnext

/-- If it depends on the rows alone what is refused, the groups without such a row are taken. -/
theorem isOk_each (refusesRow : Statement → Option String) {db : Database} {stored insertions : List Statement}
    (h : db.InSession stored insertions) (groups : List (List Row)) :
    (each (groups.map (writeGroup (server fun _ => refusesRow))) db).1.map Except.isOk =
      groups.map fun group => group.all fun r => (refusesRow (insertOne r)).isNone := by
  induction groups generalizing db insertions with
  | nil => rfl
  | cons group groups ih =>
    rw [List.map_cons, each_cons, List.map_cons, List.map_cons]
    rcases writeGroup_cases (fun _ => refusesRow) h group with
      ⟨db', -, htaken, hnext, -, -, hnone⟩ | ⟨r, hr, text, db', -, hrefused, hnext, -, -, -, hsome⟩
    · have hall : (group.all fun r => (refusesRow (insertOne r)).isNone) = true := by
        refine List.all_eq_true.2 fun r hr => ?_
        obtain ⟨-, hr⟩ := hnone r hr
        simp [hr]
      rw [htaken, hall, ih hnext]
      rfl
    · have hall : (group.all fun r => (refusesRow (insertOne r)).isNone) = false := by
        simpa using ⟨r, hr, by simp [hsome]⟩
      rw [hrefused, hall, ih hnext]
      rfl

/-- The call answers that a row was rejected. -/
def Rejected (result : Except StoreError Unit) : Prop := ∃ table reason, result = .error (.rowRejected table reason)

/-- A call that rejects its group is one of whose insertions one was refused. -/
theorem writeGroup_rejected_iff {db : Database} {stored insertions : List Statement}
    (h : db.InSession stored insertions) (group : List Row) :
    ∃ result next sent, writeGroup (server refuses) group db = (result, next) ∧ next.log = db.log ++ sent ∧
      (result = .ok () ∨ Rejected result) ∧
      (Rejected result ↔ ∃ r ∈ group, ∃ text, (insertOne r, some text) ∈ sent) := by
  rcases writeGroup_cases refuses h group with
    ⟨next, sent, htaken, -, hlog, hnone, -⟩ | ⟨r, hr, text, next, sent, hrefused, -, hlog, hsent, -⟩
  · refine ⟨_, next, sent, htaken, hlog, .inl rfl, ?_, ?_⟩
    · rintro ⟨_, _, hresult⟩
      cases hresult
    · rintro ⟨_, _, _, hsent⟩
      cases hnone _ hsent
  · have hrejected : Rejected (.error (.rowRejected r.table (refusalText text))) := ⟨_, _, rfl⟩
    exact ⟨_, next, sent, hrefused, hlog, .inr hrejected, fun _ => ⟨r, hr, text, hsent⟩, fun _ => hrejected⟩

/-- **Groups are atomic.**  In a session on a database that refuses any insertions, every call either takes its
group or rejects it, which it does just if one of its insertions is refused.  After any calls the transaction
still takes statements, and it holds the rows of the groups that were taken; so does the database after the
commit.  A session in memory that takes and refuses the same groups holds the same rows, so a database and a store
with the same rows of every table still have them after both commits. -/
theorem session_exact {db : Database} (hdb : db.transaction = none) (groups : List (List Row)) :
    ∃ opened, beginSession (server refuses) db = (.ok (), opened) ∧
      ∀ results db' rows, each (groups.map (writeGroup (server refuses))) opened = (results, db') →
        acceptedRows groups (results.map Except.isOk) = rows →
        db'.InSession db.stored (rows.map insertOne) ∧
        (∀ group, ∃ result next sent, writeGroup (server refuses) group db' = (result, next) ∧
          next.log = db'.log ++ sent ∧ (result = .ok () ∨ Rejected result) ∧
          (Rejected result ↔ ∃ r ∈ group, ∃ text, (insertOne r, some text) ∈ sent)) ∧
        ∃ committed, commitSession (server refuses) db' = (.ok (), committed) ∧ committed.transaction = none ∧
          committed.stored = db.stored ++ rows.map insertOne ∧
          ((∀ r ∈ rows, r.IsFull) → AddsInRow (rows.map insertOne) rows) ∧
          ∀ (calls : List (Store × List Row)) decisions staged, calls.map (·.2) = groups →
            each (calls.map fun c => c.1.stageInto c.2) [] = (decisions, staged) →
            decisions.map Except.isOk = results.map Except.isOk →
            staged = rows ∧ ((∀ r ∈ rows, r.IsFull) → ∀ s s' : Store, db.SameRows s → s.publish staged = .ok s' →
              committed.SameRows s') := by
  obtain ⟨stored, transaction, log⟩ := db
  obtain rfl : transaction = none := hdb
  refine ⟨_, undo_of_ok (execute_begin refuses stored log), fun results db' rows hrun hrows => ?_⟩
  have hopened : InSession ⟨stored, some .empty, log ++ [(begin, none)]⟩ stored [] := ⟨rfl, [], rfl⟩
  have hsession := inSession_each refuses hopened groups
  rw [hrun, hrows, List.nil_append] at hsession
  refine ⟨hsession, writeGroup_rejected_iff refuses hsession, ?_⟩
  obtain ⟨rfl, savepoints, htransaction⟩ := hsession
  obtain ⟨stored, transaction, log'⟩ := db'
  obtain rfl : transaction = some ⟨rows.map insertOne, savepoints, false⟩ := htransaction
  refine ⟨_, undo_of_ok (execute_commit refuses stored (rows.map insertOne) savepoints log'), rfl, rfl,
    addsInRow_insertOne, fun calls decisions staged hcalls hmemory hsame => ?_⟩
  have hstaged := Store.each_stageInto calls []
  rw [hmemory, hcalls, hsame, hrows, List.nil_append] at hstaged
  refine ⟨hstaged, fun hfull s s' hs hpublish => ?_⟩
  have hs' : s'.rows = s.rows ++ staged := by
    unfold Store.publish at hpublish
    split at hpublish
    · cases hpublish
    · cases hpublish
      rfl
  exact hs.append rfl (hstaged ▸ hs') (addsInRow_insertOne hfull) fun _ => rfl

end

/-- A row whose name tells it from others. -/
def named (name : String) : Row := ⟨"pools", ["pool"], [.text name]⟩

def threeGroups : List (List Row) := [[named "A"], [named "C", named "B"], [named "D"]]

/-- A database that refuses the name `B`. -/
def refusesB (stmt : Statement) : Option String :=
  if stmt.params = [.value (.text "B")] then some "duplicate key" else none

/-- The second of three groups is rejected for its second row; in memory its table takes nothing at that time. -/
theorem session_exact_rejectedGroup :
    ∃ opened results db' committed, beginSession (Database.server fun _ => refusesB) .empty = (.ok (), opened) ∧
      Exchange.each (threeGroups.map (writeGroup (Database.server fun _ => refusesB))) opened = (results, db') ∧
      results.map Except.isOk = [true, false, true] ∧
      db'.InSession [] [insertOne (named "A"), insertOne (named "D")] ∧
      commitSession (Database.server fun _ => refusesB) db' = (.ok (), committed) ∧
      committed.SameRows { Store.empty with rows := [named "A", named "D"] } := by
  have hempty : Database.empty.transaction = none := rfl
  obtain ⟨opened, hbegin, hsession⟩ := session_exact (fun _ => refusesB) hempty threeGroups
  have hopened : opened.InSession [] [] := by
    have hstate : opened = ⟨[], some .empty, [(begin, none)]⟩ := (congrArg Prod.snd hbegin).symm
    exact hstate ▸ ⟨rfl, [], rfl⟩
  have htaken := (isOk_each refusesB hopened threeGroups).trans (show _ = [true, false, true] from rfl)
  cases hrun : Exchange.each (threeGroups.map (writeGroup (Database.server fun _ => refusesB))) opened with
  | mk results db' =>
    rw [hrun] at htaken
    obtain ⟨hheld, -, committed, hcommit, -, -, -, hmemory⟩ :=
      hsession results db' [named "A", named "D"] hrun (htaken ▸ rfl)
    obtain ⟨-, hsame⟩ := hmemory [(.empty, [named "A"]), ({ Store.empty with rejectedTables := ["pools"] },
      [named "C", named "B"]), (.empty, [named "D"])] _ _ rfl rfl (htaken ▸ rfl)
    have hrows : Database.empty.SameRows .empty := ⟨[], ⟨[], .nil, rfl⟩, fun _ => rfl⟩
    have hfull : ∀ r ∈ [named "A", named "D"], r.IsFull := by simp [named, Row.IsFull]
    exact ⟨opened, results, db', committed, hbegin, hrun, htaken, hheld, hcommit, hsame hfull _ _ hrows rfl⟩

end Sql

end PoolIndexer
