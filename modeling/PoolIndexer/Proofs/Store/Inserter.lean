import PoolIndexer.Store.Inserter

/-!
# Proofs.Store.Inserter — what either strategy does with a group of rows

Both strategies hold the rows they have taken until a flush, which adds all of them to the store or
none.  A refused group leaves what is held as it was.  Where nothing but the rejection of a table
can fail, the outcome of every call is known beforehand.
-/

namespace PoolIndexer

namespace Store

/-- Whether some row belongs to a table that rejects writes. -/
def rejects (s : Store) (rows : List Row) : Bool := rows.any fun r => s.rejectedTables.contains r.table

/-- There is no outage, and the batch strategy meets no table that rejects writes. -/
structure CalmFor (s : Store) (strategy : Strategy) : Prop where
  outage : s.outage = false
  rejected : strategy = .batch → s.rejectedTables = []

theorem refusal?_eq_none {s : Store} {rows : List Row} (hs : s.outage = false)
    (hrows : s.rejects rows = false) : s.refusal? rows = none := by
  have hfind : (rows.find? fun r => s.rejectedTables.contains r.table) = none := by
    rw [List.find?_eq_none]
    intro r hr hcontains
    exact absurd (List.any_eq_true.2 ⟨r, hr, hcontains⟩) (Bool.eq_false_iff.1 hrows)
  unfold refusal?
  rw [hs, hfind]
  rfl

theorem refusal?_eq_some {s : Store} {rows : List Row} (hs : s.outage = false)
    (hrows : s.rejects rows = true) :
    ∃ table, s.refusal? rows = some (.rowRejected table "table rejects writes") := by
  unfold refusal?
  rw [hs]
  cases hfind : rows.find? fun r => s.rejectedTables.contains r.table with
  | some r => exact ⟨r.table, rfl⟩
  | none =>
    obtain ⟨r, hr, hcontains⟩ := List.any_eq_true.1 hrows
    exact absurd hcontains (List.find?_eq_none.1 hfind r hr)

theorem rejects_of_refusal {s : Store} {rows : List Row} {table reason : String}
    (h : s.refusal? rows = some (.rowRejected table reason)) : s.rejects rows = true := by
  unfold refusal? at h
  split at h
  · cases h
  · cases hfind : rows.find? fun r => s.rejectedTables.contains r.table with
    | none =>
      rw [hfind] at h
      cases h
    | some r =>
      have hrejected := List.find?_some hfind
      exact List.any_eq_true.2 ⟨r, List.mem_of_find?_eq_some hfind, hrejected⟩

theorem rejects_eq_false {s : Store} (hs : s.rejectedTables = []) (rows : List Row) :
    s.rejects rows = false := by
  unfold rejects
  rw [hs]
  exact List.any_eq_false.2 fun _ _ => Bool.false_ne_true

end Store

namespace StagedRows

theorem eq_of_sessionOn {w : StagedRows} {s : Store} {staged : List Row}
    (h : w.sessionOn s = .ok staged) : staged = w.session.getD [] := by
  unfold sessionOn Store.openSession at h
  cases hsession : w.session with
  | some rows =>
    rw [hsession] at h
    cases h
    rfl
  | none =>
    rw [hsession] at h
    dsimp only at h
    split at h
    · cases h
    · cases h
      rfl

theorem sessionOn_error {w : StagedRows} {s : Store} {e : StoreError}
    (h : w.sessionOn s = .error e) : e = Store.writeFailure ∧ s.outage = true := by
  unfold sessionOn Store.openSession at h
  split at h
  · cases h
  · split at h
    · rename_i houtage
      cases h
      exact ⟨rfl, houtage⟩
    · cases h

end StagedRows

namespace Inserter

/-! ### What is held -/

/-- The rows that are taken and not in the store yet. -/
def pending : Inserter → List Row
  | .batch b => b.rows
  | .tolerant w => w.session.getD []

def block : Inserter → BlockState
  | .batch b => b.block
  | .tolerant w => w.block

def Open (i : Inserter) : Prop := i.block.isOpen = true

/-- Between blocks nothing of an open block is left. -/
def Closed : Inserter → Prop
  | .batch b => b.block.isOpen = false ∧ b.completed = b.rows.length
  | .tolerant w => w.block.isOpen = false

theorem closed_ofStrategy (strategy : Strategy) : (ofStrategy strategy).Closed := by
  cases strategy with
  | batch => exact ⟨rfl, rfl⟩
  | tolerant => exact rfl

@[simp] theorem pending_ofStrategy (strategy : Strategy) : (ofStrategy strategy).pending = [] := by
  cases strategy <;> rfl

@[simp] theorem strategy_ofStrategy (s : Strategy) : (ofStrategy s).strategy = s := by
  cases s <;> rfl

/-! ### Blocks -/

theorem startBlock_eq_ok {i : Inserter} (h : i.Closed) :
    ∃ i', i.startBlock = .ok i' ∧ i'.Open ∧ i'.pending = i.pending ∧ i'.strategy = i.strategy := by
  cases i with
  | batch b =>
    refine ⟨.batch { b with block := { b.block with isOpen := true } }, ?_, rfl, rfl, rfl⟩
    simp only [startBlock, RowBuffer.startBlock, BlockState.start, h.1]
    rfl
  | tolerant w =>
    refine ⟨.tolerant { w with block := { w.block with isOpen := true } }, ?_, rfl, rfl, rfl⟩
    have hopen : w.block.isOpen = false := h
    simp only [startBlock, BlockState.start, hopen]
    rfl

theorem startBlock_of_open {i : Inserter} (h : i.Open) : ∃ e, i.startBlock = .error e := by
  cases i with
  | batch b =>
    have hopen : b.block.isOpen = true := h
    simp only [startBlock, RowBuffer.startBlock, BlockState.start, hopen]
    exact ⟨_, rfl⟩
  | tolerant w =>
    have hopen : w.block.isOpen = true := h
    simp only [startBlock, BlockState.start, hopen]
    exact ⟨_, rfl⟩

theorem endBlock_eq_ok {i : Inserter} (h : i.Open) :
    ∃ i', i.endBlock = .ok i' ∧ i'.Closed ∧ i'.block.ended ≠ 0 ∧ i'.pending = i.pending ∧
      i'.strategy = i.strategy := by
  cases i with
  | batch b =>
    have hopen : b.block.isOpen = true := h
    refine ⟨.batch ⟨b.rows, b.rows.length, ⟨false, b.block.ended + 1⟩⟩, ?_, ⟨rfl, rfl⟩, Nat.succ_ne_zero _, rfl, rfl⟩
    simp only [endBlock, RowBuffer.endBlock, BlockState.finish, hopen]
    rfl
  | tolerant w =>
    have hopen : w.block.isOpen = true := h
    refine ⟨.tolerant { w with block := ⟨false, w.block.ended + 1⟩ }, ?_, rfl, Nat.succ_ne_zero _, rfl, rfl⟩
    simp only [endBlock, BlockState.finish, hopen]
    rfl

/-! ### Groups of rows -/

/-- A group is taken, refused without a trace, or lost, at worst with all that is held. -/
theorem insertRows_cases {i : Inserter} (h : i.Open) (s : Store) (group : List Row) :
    (∃ i', i.insertRows s group = (.ok (), i') ∧ i'.Open ∧ i'.pending = i.pending ++ group) ∨
    (∃ e i', i.insertRows s group = (.error e, i') ∧ e.isRowRefusal = true ∧ s.rejects group = true ∧
      i'.Open ∧ i'.pending = i.pending) ∨
    ∃ e i', i.insertRows s group = (.error e, i') ∧ e.isRowRefusal = false ∧ i'.Open ∧
      (i'.pending = i.pending ∨ i'.pending = []) := by
  cases i with
  | batch b =>
    have hopen : b.block.isOpen = true := h
    refine .inl ⟨.batch { b with rows := b.rows ++ group }, ?_, h, rfl⟩
    simp only [insertRows, RowBuffer.push, BlockState.requireOpen, hopen]
    rfl
  | tolerant w =>
    have hopen : w.block.isOpen = true := h
    simp only [insertRows, StagedRows.push, BlockState.requireOpen, hopen]
    by_cases hempty : group.isEmpty = true
    · rw [List.isEmpty_iff.1 hempty]
      exact .inl ⟨.tolerant w, rfl, h, (List.append_nil _).symm⟩
    · simp only [hempty]
      cases hsession : w.sessionOn s with
      | error e =>
        rw [(StagedRows.sessionOn_error hsession).1]
        exact .inr (.inr ⟨_, _, rfl, rfl, h, .inl rfl⟩)
      | ok staged =>
        have hstaged := StagedRows.eq_of_sessionOn hsession
        cases hrefusal : s.refusal? group with
        | none =>
          refine .inl ⟨.tolerant { w with session := some (staged ++ group) }, ?_, h, ?_⟩
          · simp only [Store.stage, hrefusal]
            rfl
          · exact congrArg (· ++ group) hstaged
        | some e =>
          simp only [Store.stage, hrefusal]
          cases e with
          | rowRejected table reason =>
            exact .inr (.inl ⟨_, _, rfl, rfl, Store.rejects_of_refusal hrefusal, h, hstaged⟩)
          | database message => exact .inr (.inr ⟨_, _, rfl, rfl, h, .inr rfl⟩)
          | schemaMismatch stored expected => exact .inr (.inr ⟨_, _, rfl, rfl, h, .inr rfl⟩)
          | migrationFailed message => exact .inr (.inr ⟨_, _, rfl, rfl, h, .inr rfl⟩)

/-- A failure keeps what is held or loses it. -/
theorem subset_of_kept {i i' : Inserter} (h : i'.pending = i.pending ∨ i'.pending = []) :
    i'.pending ⊆ i.pending := by
  rcases h with h | h
  · exact h ▸ List.Subset.refl _
  · exact h ▸ List.nil_subset _

/-- Whatever comes of a group, the block stays open and nothing but the group is added. -/
theorem insertRows_open {i : Inserter} (h : i.Open) (s : Store) (group : List Row) :
    (i.insertRows s group).2.Open ∧ (i.insertRows s group).2.pending ⊆ i.pending ++ group := by
  rcases insertRows_cases h s group with
    ⟨i', hi, hopen, hpending⟩ | ⟨e, i', hi, -, -, hopen, hpending⟩ | ⟨e, i', hi, -, hopen, hpending | hpending⟩
  · rw [hi, hpending]
    exact ⟨hopen, List.Subset.refl _⟩
  · rw [hi, hpending]
    exact ⟨hopen, List.subset_append_left _ _⟩
  · rw [hi, hpending]
    exact ⟨hopen, List.subset_append_left _ _⟩
  · rw [hi, hpending]
    exact ⟨hopen, List.nil_subset _⟩

/-- On a calm store a group is refused if a row of it is, and taken otherwise. -/
theorem insertRows_of_calm {i : Inserter} {s : Store} (h : i.Open) (hs : s.CalmFor i.strategy)
    (group : List Row) :
    ∃ i', i'.Open ∧ i'.strategy = i.strategy ∧
      if s.rejects group then
        ∃ e, i.insertRows s group = (.error e, i') ∧ e.isRowRefusal = true ∧ i'.pending = i.pending
      else i.insertRows s group = (.ok (), i') ∧ i'.pending = i.pending ++ group := by
  cases i with
  | batch b =>
    have hopen : b.block.isOpen = true := h
    refine ⟨.batch { b with rows := b.rows ++ group }, h, rfl, ?_⟩
    rw [Store.rejects_eq_false (hs.rejected rfl)]
    refine ⟨?_, rfl⟩
    simp only [insertRows, RowBuffer.push, BlockState.requireOpen, hopen]
    rfl
  | tolerant w =>
    have hopen : w.block.isOpen = true := h
    simp only [insertRows, StagedRows.push, BlockState.requireOpen, hopen]
    cases group with
    | nil => exact ⟨.tolerant w, h, rfl, rfl, (List.append_nil _).symm⟩
    | cons r rest =>
      cases hsession : w.sessionOn s with
      | error e => exact absurd (StagedRows.sessionOn_error hsession).2 (Bool.eq_false_iff.1 hs.outage)
      | ok staged =>
        have hstaged := StagedRows.eq_of_sessionOn hsession
        cases hrejects : s.rejects (r :: rest) with
        | true =>
          obtain ⟨table, hrefusal⟩ := Store.refusal?_eq_some hs.outage hrejects
          simp only [Store.stage, hrefusal]
          exact ⟨.tolerant { w with session := some staged, skipped := w.skipped + (rest.length + 1) }, h, rfl,
            _, rfl, rfl, hstaged⟩
        | false =>
          simp only [Store.stage, Store.refusal?_eq_none hs.outage hrejects]
          exact ⟨.tolerant { w with session := some (staged ++ r :: rest) }, h, rfl, rfl,
            congrArg (· ++ r :: rest) hstaged⟩

/-- A group of one checked row. -/
theorem insert_eq_insertRows {table : String} {columns : List String} {values : List Value} {row : Row}
    (h : Row.check table columns values = .ok row) (i : Inserter) (s : Store) :
    i.insert s table columns values = i.insertRows s [row] := by
  unfold Inserter.insert
  rw [h]

/-! ### The flush -/

/-- After a block the flush adds all that is held to the store; it leaves the store alone if that is
not calm. -/
theorem flush_cases {i : Inserter} (h : i.Closed) (hended : i.block.ended ≠ 0) (s : Store) :
    (∃ stats i', i.flush s = (.ok stats, i', { s with rows := s.rows ++ i.pending }) ∧ i'.Closed ∧
      i'.pending = [] ∧ i'.strategy = i.strategy) ∨
    ∃ e i', i.flush s = (.error e, i', s) ∧ ¬ s.CalmFor i.strategy ∧ i'.Closed ∧
      (i'.pending = i.pending ∨ i'.pending = []) := by
  cases i with
  | batch b =>
    have hended : b.block.ended ≠ 0 := hended
    have hpending : (Inserter.batch b).pending = b.complete := by
      show b.rows = b.rows.take b.completed
      rw [h.2, List.take_length]
    have hdrained : b.drain.rows = [] := by
      show b.rows.drop b.completed = []
      rw [h.2, List.drop_length]
    simp only [flush, RowBuffer.flush, hpending, if_neg hended]
    unfold Store.write
    cases hrefusal : s.refusal? b.complete with
    | some e =>
      refine .inr ⟨_, _, rfl, fun hs => ?_, h, .inl hpending⟩
      rw [Store.refusal?_eq_none hs.outage (Store.rejects_eq_false (hs.rejected rfl) _)] at hrefusal
      cases hrefusal
    | none => exact .inl ⟨_, _, rfl, ⟨h.1, (congrArg List.length hdrained).symm⟩, hdrained, rfl⟩
  | tolerant w =>
    have hopen : w.block.isOpen = false := h
    simp only [flush, StagedRows.flush, hopen]
    cases hsession : w.session with
    | none =>
      refine .inl ⟨⟨w.block.ended, w.written, w.skipped⟩, .tolerant w.reset, ?_, h, rfl, rfl⟩
      simp only [pending, hsession, Option.getD_none, List.append_nil]
      rfl
    | some staged =>
      unfold Store.publish
      cases houtage : s.outage with
      | true =>
        refine .inr ⟨_, _, rfl, fun hs => ?_, h, .inr rfl⟩
        exact absurd houtage (Bool.eq_false_iff.1 hs.outage)
      | false =>
        refine .inl ⟨⟨w.block.ended, w.written, w.skipped⟩, .tolerant w.reset, ?_, h, rfl, rfl⟩
        simp only [pending, hsession]
        rfl

theorem flush_of_calm {i : Inserter} {s : Store} (h : i.Closed) (hended : i.block.ended ≠ 0)
    (hs : s.CalmFor i.strategy) :
    ∃ stats i', i.flush s = (.ok stats, i', { s with rows := s.rows ++ i.pending }) ∧ i'.Closed ∧
      i'.pending = [] ∧ i'.strategy = i.strategy := by
  rcases flush_cases h hended s with hok | ⟨e, i', -, hstorm, -⟩
  · exact hok
  · exact absurd hs hstorm

/-! ### What fails, and what never changes

An inserter keeps its strategy, and once a block is open only the store makes it fail: the batch
strategy on a flush, the tolerant one at any time. -/

theorem strategy_insertRows (i : Inserter) (s : Store) (group : List Row) :
    (i.insertRows s group).2.strategy = i.strategy := by
  cases i with
  | batch b =>
    unfold insertRows
    dsimp only
    cases b.push group <;> rfl
  | tolerant w => rfl

theorem strategy_flush (i : Inserter) (s : Store) : (i.flush s).2.1.strategy = i.strategy := by
  cases i with
  | batch b =>
    unfold flush
    dsimp only
    cases b.flush s <;> rfl
  | tolerant w =>
    unfold flush
    dsimp only
    cases w.flush s with
    | mk result w' => cases result <;> rfl

theorem insertRows_error {i i' : Inserter} (h : i.Open) {s : Store} {group : List Row} {e : IndexerError}
    (he : i.insertRows s group = (.error e, i')) : i.strategy = .tolerant ∧ ∃ f, e = .store f := by
  cases i with
  | batch b =>
    have hopen : b.block.isOpen = true := h
    simp only [insertRows, RowBuffer.push, BlockState.requireOpen, hopen] at he
    cases he
  | tolerant w =>
    have hopen : w.block.isOpen = true := h
    refine ⟨rfl, ?_⟩
    have hpush : (w.push s group).1 = .error e := congrArg Prod.fst he
    simp only [StagedRows.push, BlockState.requireOpen, hopen, if_true] at hpush
    split at hpush
    · cases hpush
    · split at hpush
      · cases hpush
        exact ⟨_, rfl⟩
      · split at hpush <;> cases hpush
        · exact ⟨_, rfl⟩
        · exact ⟨_, rfl⟩

theorem flush_error {i i' : Inserter} (h : i.Closed) {s s' : Store} {e : IndexerError}
    (he : i.flush s = (.error e, i', s')) : s' = s ∧ ∃ f, e = .store f := by
  cases i with
  | batch b =>
    simp only [flush, RowBuffer.flush] at he
    by_cases hended : b.block.ended = 0
    · rw [if_pos hended] at he
      cases he
    · rw [if_neg hended] at he
      cases hwrite : s.write b.complete with
      | ok s₁ =>
        rw [hwrite] at he
        cases he
      | error f =>
        rw [hwrite] at he
        cases he
        exact ⟨rfl, f, rfl⟩
  | tolerant w =>
    have hopen : w.block.isOpen = false := h
    simp only [flush, StagedRows.flush, hopen, Bool.false_eq_true, if_false] at he
    cases hsession : w.session with
    | none =>
      rw [hsession] at he
      cases he
    | some staged =>
      rw [hsession] at he
      dsimp only at he
      cases hpublish : s.publish staged with
      | ok s₁ =>
        rw [hpublish] at he
        cases he
      | error f =>
        rw [hpublish] at he
        cases he
        exact ⟨rfl, f, rfl⟩

end Inserter

end PoolIndexer
