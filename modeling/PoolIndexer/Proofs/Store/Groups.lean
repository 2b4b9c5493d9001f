import PoolIndexer.Proofs.Store.Inserter

/-!
# Proofs.Store.Groups — groups of rows and how an inserter counts them

* `Store.turnsAway`: the groups that the store refuses when they come.  The batch strategy does not ask it then.
* `Inserter.Took`: of these groups an open block took all that are not turned away, and counted the others.
* `Inserter.flush_counts`: a flush reports what is held and what was turned away, and begins anew.
-/

namespace PoolIndexer

/-- Whether a group is refused when it comes. -/
def Store.turnsAway (s : Store) : Strategy → List Row → Bool
  | .batch => fun _ => false
  | .tolerant => s.rejects

theorem Store.rejects_eq_false_of_taken {s : Store} {rows : List Row} (h : s.refusal? rows = none) :
    s.rejects rows = false := by
  cases hrejects : s.rejects rows with
  | false => rfl
  | true =>
    cases houtage : s.outage with
    | true =>
      rw [Store.refusal?, houtage] at h
      cases h
    | false =>
      obtain ⟨table, hrefusal⟩ := refusal?_eq_some houtage hrejects
      cases h.symm.trans hrefusal

namespace Inserter

/-- How many rows were turned away since the last flush. -/
def skipped : Inserter → Nat
  | .batch _ => 0
  | .tolerant w => w.skipped

structure Took (s : Store) (i i' : Inserter) (groups : List (List Row)) : Prop where
  strategy : i'.strategy = i.strategy
  block : i'.block = i.block
  pending : i'.pending = i.pending ++ (groups.filter fun group => !s.turnsAway i.strategy group).flatten
  skipped : i'.skipped = i.skipped + (groups.filter (s.turnsAway i.strategy)).flatten.length

section

variable {s : Store} {i i' i'' : Inserter} {groups more : List (List Row)}

theorem Took.none (s : Store) (i : Inserter) : Took s i i [] := ⟨rfl, rfl, (List.append_nil _).symm, rfl⟩

theorem Took.append (h : Took s i i' groups) (hmore : Took s i' i'' more) : Took s i i'' (groups ++ more) where
  strategy := hmore.strategy.trans h.strategy
  block := hmore.block.trans h.block
  pending := by
    rw [hmore.pending, h.pending, h.strategy, List.filter_append, List.flatten_append, List.append_assoc]
  skipped := by
    rw [hmore.skipped, h.skipped, h.strategy, List.filter_append, List.flatten_append, List.length_append,
      Nat.add_assoc]

theorem Took.opened (h : Took s i i' groups) (hopen : i.Open) : i'.Open :=
  (congrArg BlockState.isOpen h.block).trans hopen

/-- One group that is not turned away. -/
theorem Took.of_taken {group : List Row} (hstrategy : i'.strategy = i.strategy) (hblock : i'.block = i.block)
    (htaken : s.turnsAway i.strategy group = false) (hpending : i'.pending = i.pending ++ group)
    (hskipped : i'.skipped = i.skipped) : Took s i i' [group] := by
  refine ⟨hstrategy, hblock, ?_, ?_⟩
  · rw [hpending, List.filter_cons_of_pos (by rw [htaken]; rfl), List.filter_nil, List.flatten_singleton]
  · rw [hskipped, List.filter_cons_of_neg (by rw [htaken]; exact Bool.false_ne_true)]
    rfl

theorem Took.of_turnedAway {group : List Row} (hstrategy : i'.strategy = i.strategy) (hblock : i'.block = i.block)
    (haway : s.turnsAway i.strategy group = true) (hpending : i'.pending = i.pending)
    (hskipped : i'.skipped = i.skipped + group.length) : Took s i i' [group] := by
  refine ⟨hstrategy, hblock, ?_, ?_⟩
  · rw [hpending, List.filter_cons_of_neg (by rw [haway]; exact Bool.false_ne_true)]
    exact (List.append_nil _).symm
  · rw [hskipped, List.filter_cons_of_pos haway, List.filter_nil, List.flatten_singleton]

/-! ### One group -/

variable {group : List Row}

/-- A group that is not an error is taken, or turned away and counted; only what is taken is answered as such. -/
theorem insertRows_took {result : Except IndexerError Unit} (hopen : i.Open) (h : i.insertRows s group = (result, i'))
    (hresult : ∀ e, result = .error e → e.isRowRefusal = true) :
    Took s i i' [group] ∧ (result = .ok () → s.turnsAway i.strategy group = false) := by
  cases i with
  | batch b =>
    have hopen : b.block.isOpen = true := hopen
    simp only [insertRows, RowBuffer.push, BlockState.requireOpen, hopen] at h
    cases h
    exact ⟨.of_taken rfl rfl rfl rfl rfl, fun _ => rfl⟩
  | tolerant w =>
    have hopen : w.block.isOpen = true := hopen
    simp only [insertRows, StagedRows.push, BlockState.requireOpen, hopen] at h
    cases group with
    | nil =>
      cases h
      exact ⟨.of_taken rfl rfl rfl (List.append_nil _).symm rfl, fun _ => rfl⟩
    | cons r rest =>
      cases hsession : w.sessionOn s with
      | error e =>
        simp only [hsession] at h
        cases h
        cases (StagedRows.sessionOn_error hsession).1 ▸ hresult _ rfl
      | ok staged =>
        have hstaged := StagedRows.eq_of_sessionOn hsession
        simp only [hsession] at h
        cases hrefusal : s.refusal? (r :: rest) with
        | none =>
          have htaken := Store.rejects_eq_false_of_taken hrefusal
          simp only [Store.stage, hrefusal] at h
          cases h
          exact ⟨.of_taken rfl rfl htaken (congrArg (· ++ r :: rest) hstaged) rfl, fun _ => htaken⟩
        | some e =>
          simp only [Store.stage, hrefusal] at h
          cases e with
          | rowRejected table reason =>
            cases h
            exact ⟨.of_turnedAway rfl rfl (Store.rejects_of_refusal hrefusal) hstaged rfl, fun hok => by cases hok⟩
          | database message =>
            cases h
            cases hresult _ rfl
          | schemaMismatch stored expected =>
            cases h
            cases hresult _ rfl
          | migrationFailed message =>
            cases h
            cases hresult _ rfl

theorem took_of_ok (hopen : i.Open) (h : i.insertRows s group = (.ok (), i')) :
    Took s i i' [group] ∧ s.turnsAway i.strategy group = false :=
  (insertRows_took hopen h fun _ he => by cases he).imp_right fun htaken => htaken rfl

theorem took_of_refused {e : IndexerError} (hopen : i.Open) (h : i.insertRows s group = (.error e, i'))
    (he : e.isRowRefusal = true) : Took s i i' [group] :=
  (insertRows_took hopen h fun _ heq => Except.error.inj heq ▸ he).1

/-! ### The end of a block, and the flush -/

theorem endBlock_counts (h : i.endBlock = .ok i') :
    i'.Closed ∧ i'.block.ended = i.block.ended + 1 ∧ i'.pending = i.pending ∧ i'.skipped = i.skipped ∧
      i'.strategy = i.strategy := by
  cases i with
  | batch b =>
    simp only [endBlock, RowBuffer.endBlock, BlockState.finish] at h
    split at h
    · cases h
      exact ⟨⟨rfl, rfl⟩, rfl, rfl, rfl, rfl⟩
    · cases h
  | tolerant w =>
    simp only [endBlock, BlockState.finish] at h
    split at h
    · cases h
      exact ⟨rfl, rfl, rfl, rfl, rfl⟩
    · cases h

theorem startBlock_counts (h : i.startBlock = .ok i') :
    i'.Open ∧ i'.block.ended = i.block.ended ∧ i'.pending = i.pending ∧ i'.skipped = i.skipped ∧
      i'.strategy = i.strategy := by
  cases i with
  | batch b =>
    simp only [startBlock, RowBuffer.startBlock, BlockState.start] at h
    split at h
    · cases h
    · cases h
      exact ⟨rfl, rfl, rfl, rfl, rfl⟩
  | tolerant w =>
    simp only [startBlock, BlockState.start] at h
    split at h
    · cases h
    · cases h
      exact ⟨rfl, rfl, rfl, rfl, rfl⟩

/-- A flush that goes through reports all that is held and all that was turned away, and leaves nothing behind. -/
theorem flush_counts {s' : Store} {stats : FlushStats} (hclosed : i.Closed) (hended : i.block.ended ≠ 0)
    (h : i.flush s = (.ok stats, i', s')) :
    stats = ⟨i.block.ended, i.pending.length, i.skipped⟩ ∧ s' = { s with rows := s.rows ++ i.pending } ∧
      i' = ofStrategy i.strategy := by
  cases i with
  | batch b =>
    obtain ⟨rows, completed, isOpen, ended⟩ := b
    obtain ⟨rfl, hcompleted⟩ : isOpen = false ∧ completed = rows.length := hclosed
    subst hcompleted
    have hended : ended ≠ 0 := hended
    simp only [flush, RowBuffer.flush, if_neg hended, RowBuffer.complete, List.take_length, Store.write] at h
    cases hrefusal : s.refusal? rows with
    | some e =>
      rw [hrefusal] at h
      cases h
    | none =>
      rw [hrefusal] at h
      cases h
      refine ⟨rfl, rfl, ?_⟩
      simp only [RowBuffer.drain, List.drop_length]
      rfl
  | tolerant w =>
    obtain ⟨session, ⟨isOpen, ended⟩, skipped⟩ := w
    obtain rfl : isOpen = false := hclosed
    simp only [flush, StagedRows.flush, Bool.false_eq_true, if_false] at h
    cases session with
    | none =>
      cases h
      exact ⟨rfl, by rw [pending, Option.getD_none, List.append_nil], rfl⟩
    | some staged =>
      cases houtage : s.outage with
      | true =>
        simp only [Store.publish, houtage] at h
        cases h
      | false =>
        simp only [Store.publish, houtage] at h
        cases h
        exact ⟨rfl, rfl, rfl⟩

end

end Inserter

end PoolIndexer
