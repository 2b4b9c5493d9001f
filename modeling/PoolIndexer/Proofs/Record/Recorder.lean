import PoolIndexer.Proofs.Record.Balances
import PoolIndexer.Proofs.Store.Inserter
import PoolIndexer.Record.Recorder

/-!
# Proofs.Record.Recorder — an event is recorded with its rows or not at all

Recording an event that goes through either takes its rows and makes its changes, or leaves both the
rows and the totals as they were.  On a calm store the rows alone decide which of the two.
-/

namespace PoolIndexer

namespace Recorder

variable {r : Recorder} {s : Store} {b : Books} {e : Event} {m : Metadata}

/-- An event that is recorded without a failure. -/
theorem record_eq_ok {b' : Books} (hopen : b.inserter.Open) (h : r.record s b e m = (.ok (), b')) :
    b'.inserter.Open ∧
      ((∃ rows, e.rows r.natives m = .ok rows ∧
          b'.inserter.pending = b.inserter.pending ++ rows ∧
          (b.totals.applyAll (e.changes r.natives r.coinKeptBelow m.height)).fault = none ∧
          b'.totals = (b.totals.applyAll (e.changes r.natives r.coinKeptBelow m.height)).totals) ∨
        b'.inserter.pending = b.inserter.pending ∧ b'.totals = b.totals) := by
  unfold Recorder.record Recorder.insert at h
  cases hrows : e.rows r.natives m with
  | error fault =>
    rw [hrows] at h
    cases fault with
    | overflow o => cases h
    | error fault =>
      cases h
      exact ⟨hopen, .inr ⟨rfl, rfl⟩⟩
  | ok rows =>
    rw [hrows] at h
    rcases Inserter.insertRows_cases hopen s rows with
      ⟨i, hi, hopen', hpending⟩ | ⟨fault, i, hi, hrefusal, -, hopen', hpending⟩ | ⟨fault, i, hi, hrefusal, -⟩
    · simp only [hi] at h
      cases hfault : (b.totals.applyAll (e.changes r.natives r.coinKeptBelow m.height)).fault with
      | some o =>
        simp only [hfault] at h
        cases h
      | none =>
        simp only [hfault] at h
        cases h
        exact ⟨hopen', .inl ⟨rows, rfl, hpending, rfl, rfl⟩⟩
    · simp only [hi, hrefusal] at h
      cases h
      exact ⟨hopen', .inr ⟨hpending, rfl⟩⟩
    · simp only [hi, hrefusal] at h
      cases h

/-- Whatever comes of an event, only its rows touch the inserter. -/
theorem inserter_record (r : Recorder) (s : Store) (b : Books) (e : Event) (m : Metadata) :
    (r.record s b e m).2.inserter = (r.insert s e m b.inserter).2 := by
  unfold Recorder.record
  cases r.insert s e m b.inserter with
  | mk result i =>
    cases result with
    | ok _ =>
      dsimp only
      split <;> rfl
    | error stop =>
      cases stop with
      | overflow o => rfl
      | error fault =>
        dsimp only
        split <;> rfl

/-- Whatever comes of an event, the block stays open and nothing but its rows is added. -/
theorem record_open (hopen : b.inserter.Open) :
    (r.record s b e m).2.inserter.Open ∧
      ∀ row ∈ (r.record s b e m).2.inserter.pending,
        row ∈ b.inserter.pending ∨ ∃ rows, e.rows r.natives m = .ok rows ∧ row ∈ rows := by
  rw [inserter_record]
  unfold Recorder.insert
  cases hrows : e.rows r.natives m with
  | error stop =>
    cases stop with
    | overflow o => exact ⟨hopen, fun row hrow => .inl hrow⟩
    | error fault => exact ⟨hopen, fun row hrow => .inl hrow⟩
  | ok rows =>
    obtain ⟨hopen', hpending⟩ := Inserter.insertRows_open hopen s rows
    have hadded : ∀ row ∈ (b.inserter.insertRows s rows).2.pending, row ∈ b.inserter.pending ∨
        ∃ rows', (.ok rows : Except (Stop InsertError) (List Row)) = .ok rows' ∧ row ∈ rows' :=
      fun row hrow => (List.mem_append.1 (hpending hrow)).imp_right fun hmem => ⟨rows, rfl, hmem⟩
    dsimp only
    cases hinsert : b.inserter.insertRows s rows with
    | mk result i =>
      rw [hinsert] at hopen' hadded
      cases result with
      | ok _ => exact ⟨hopen', hadded⟩
      | error fault => exact ⟨hopen', hadded⟩

theorem strategy_record (r : Recorder) (s : Store) (b : Books) (e : Event) (m : Metadata) :
    (r.record s b e m).2.inserter.strategy = b.inserter.strategy := by
  rw [inserter_record]
  unfold Recorder.insert
  cases e.rows r.natives m with
  | error stop => cases stop <;> rfl
  | ok rows =>
    have hkept := Inserter.strategy_insertRows b.inserter s rows
    dsimp only
    cases hinsert : b.inserter.insertRows s rows with
    | mk result i =>
      rw [hinsert] at hkept
      cases result <;> exact hkept

/-- Only the store makes recording fail, and only under the tolerant strategy. -/
theorem record_error {b' : Books} {fault : IndexerError} (hopen : b.inserter.Open)
    (h : r.record s b e m = (.error (.error fault), b')) :
    b.inserter.strategy = .tolerant ∧ ∃ f, fault = .store f := by
  unfold Recorder.record Recorder.insert at h
  cases hrows : e.rows r.natives m with
  | error stop =>
    rw [hrows] at h
    cases stop <;> cases h
  | ok rows =>
    rw [hrows] at h
    dsimp only at h
    cases hinsert : b.inserter.insertRows s rows with
    | mk result i =>
      rw [hinsert] at h
      cases result with
      | ok _ =>
        dsimp only at h
        split at h <;> cases h
      | error fault' =>
        have hstore := Inserter.insertRows_error hopen hinsert
        dsimp only at h
        split at h <;> cases h
        exact hstore

/-- The rows that a store rejecting some rows takes of an event. -/
def taken? (r : Recorder) (rejects : List Row → Bool) (e : Event) (m : Metadata) :
    Except Overflow (Option (List Row)) :=
  match e.rows r.natives m with
  | .error (.overflow o) => .error o
  | .error (.error _) => .ok none
  | .ok rows => .ok (if rejects rows then none else some rows)

/-- What is held and the balances, after an event on a calm store. -/
def posted (r : Recorder) (rejects : List Row → Bool) (held : List Row) (balances : Balances)
    (e : Event) (m : Metadata) : Except Overflow (List Row × Balances) :=
  match r.taken? rejects e m with
  | .error o => .error o
  | .ok none => .ok (held, balances)
  | .ok (some rows) =>
    (balances.applyAll (e.changes r.natives r.coinKeptBelow m.height)).map fun after =>
      (held ++ rows, after)

theorem posted_eq_ok {rejects : List Row → Bool} {held held' : List Row} {balances balances' : Balances}
    (h : r.posted rejects held balances e m = .ok (held', balances')) :
    (held' = held ∧ balances' = balances) ∨
      ∃ rows, e.rows r.natives m = .ok rows ∧ held' = held ++ rows ∧
        balances.applyAll (e.changes r.natives r.coinKeptBelow m.height) = .ok balances' := by
  unfold posted taken? at h
  cases hrows : e.rows r.natives m with
  | error fault =>
    rw [hrows] at h
    cases fault with
    | overflow o => cases h
    | error fault =>
      cases h
      exact .inl ⟨rfl, rfl⟩
  | ok rows =>
    rw [hrows] at h
    cases hrejects : rejects rows with
    | true =>
      simp only [hrejects, if_true] at h
      cases h
      exact .inl ⟨rfl, rfl⟩
    | false =>
      simp only [hrejects, Bool.false_eq_true, if_false] at h
      cases happly : balances.applyAll (e.changes r.natives r.coinKeptBelow m.height) with
      | error o =>
        rw [happly] at h
        cases h
      | ok after =>
        rw [happly] at h
        cases h
        exact .inr ⟨rows, rfl, rfl, rfl⟩

/-- On a calm store an event is recorded as it is posted. -/
theorem record_of_calm (hopen : b.inserter.Open) (hs : s.CalmFor b.inserter.strategy) :
    match r.posted s.rejects b.inserter.pending b.totals.balances e m with
    | .error o => ∃ b', r.record s b e m = (.error (.overflow o), b')
    | .ok (held, balances) =>
      ∃ b', r.record s b e m = (.ok (), b') ∧ b'.inserter.Open ∧
        b'.inserter.strategy = b.inserter.strategy ∧ b'.inserter.pending = held ∧
        b'.totals.balances = balances := by
  unfold posted taken? Recorder.record Recorder.insert
  cases e.rows r.natives m with
  | error fault =>
    cases fault with
    | overflow o => exact ⟨_, rfl⟩
    | error fault => exact ⟨_, rfl, hopen, rfl, rfl, rfl⟩
  | ok rows =>
    obtain ⟨i, hopen', hstrategy, hi⟩ := Inserter.insertRows_of_calm hopen hs rows
    cases hrejects : s.rejects rows with
    | true =>
      rw [hrejects] at hi
      obtain ⟨fault, hi, hrefusal, hpending⟩ := hi
      simp only [hi, hrejects, hrefusal, if_true]
      exact ⟨_, rfl, hopen', hstrategy, hpending, rfl⟩
    | false =>
      rw [hrejects] at hi
      obtain ⟨hi, hpending⟩ := hi
      simp only [hi, hrejects, Totals.applyAll_balances, Bool.false_eq_true, if_false]
      cases (b.totals.applyAll (e.changes r.natives r.coinKeptBelow m.height)).fault with
      | some o => exact ⟨_, rfl⟩
      | none => exact ⟨_, rfl, hopen', hstrategy, hpending, rfl⟩

end Recorder

end PoolIndexer
