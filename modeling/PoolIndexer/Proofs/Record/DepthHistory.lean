import PoolIndexer.Proofs.Record.Balances
import PoolIndexer.Proofs.Store.Inserter
import PoolIndexer.Record.DepthHistory

/-!
# Proofs.Record.DepthHistory — the rows that are due after a block

A pool is due if its depths differ from those last written.  Where the rows of depths are taken, the
depths last written are those after the block before, so the rows of a block follow from the
balances before and after it.
-/

namespace PoolIndexer

/-! ### The pools of totals -/

namespace Ledger

theorem get_insert (l : Ledger) (key : String) (amount : Int64) (k : String) :
    (l.insert key amount).get k = if k = key then amount else l.get k := by
  unfold get
  rw [get?_insert]
  split <;> rfl

theorem mem_keys_iff {l : Ledger} {key : String} : key ∈ l.keys ↔ (l.get? key).isSome = true := by
  unfold keys get?
  induction l.entries with
  | nil => simp
  | cons e rest ih =>
    obtain ⟨k, v⟩ := e
    by_cases hk : key = k
    · subst hk
      simp
    · have hkb : (key == k) = false := by simpa using hk
      simp [List.lookup_cons, hkb, hk, ih]

theorem get_eq_zero {l : Ledger} {key : String} (h : key ∉ l.keys) : l.get key = 0 := by
  rw [mem_keys_iff] at h
  unfold get
  rw [Option.not_isSome_iff_eq_none.1 h]
  rfl

theorem mem_keys_insert {l : Ledger} {key k : String} {amount : Int64} (h : k ∈ l.keys) :
    k ∈ (l.insert key amount).keys := by
  rw [mem_keys_iff, get?_insert]
  split
  · rfl
  · exact mem_keys_iff.1 h

end Ledger

namespace Totals

theorem mem_insertName {name n : String} {names : List String} :
    n ∈ insertName name names ↔ n = name ∨ n ∈ names := by
  induction names with
  | nil => simp [insertName]
  | cons head rest ih =>
    unfold insertName
    split
    · exact List.mem_cons
    · split
      · rename_i heq
        subst heq
        simp
      · simp only [List.mem_cons, ih]
        exact or_left_comm

theorem pairwise_insertName {name : String} {names : List String}
    (h : names.Pairwise (· < ·)) : (insertName name names).Pairwise (· < ·) := by
  induction names with
  | nil => exact List.pairwise_singleton _ _
  | cons head rest ih =>
    obtain ⟨hhead, hrest⟩ := List.pairwise_cons.1 h
    unfold insertName
    split
    · rename_i hlt
      refine List.pairwise_cons.2 ⟨fun n hn => ?_, h⟩
      rcases List.mem_cons.1 hn with rfl | hn
      · exact hlt
      · exact String.lt_trans hlt (hhead n hn)
    · split
      · exact h
      · rename_i hlt hne
        have hgt : head < name := by grind
        refine List.pairwise_cons.2 ⟨fun n hn => ?_, ih hrest⟩
        rcases mem_insertName.1 hn with rfl | hn
        · exact hgt
        · exact hhead n hn

theorem nodup_pools (t : Totals) : t.pools.Nodup := by
  have hsorted : t.pools.Pairwise (· < ·) := by
    unfold pools
    induction t.asset.keys ++ t.rune.keys ++ t.synth.keys with
    | nil => exact List.Pairwise.nil
    | cons name rest ih => exact pairwise_insertName ih
  exact hsorted.imp fun hlt heq => absurd (heq ▸ hlt) (String.lt_irrefl _)

theorem mem_pools {t : Totals} {pool : String} :
    pool ∈ t.pools ↔ pool ∈ t.asset.keys ∨ pool ∈ t.rune.keys ∨ pool ∈ t.synth.keys := by
  unfold pools
  rw [← or_assoc, ← List.mem_append, ← List.mem_append]
  induction t.asset.keys ++ t.rune.keys ++ t.synth.keys with
  | nil => rfl
  | cons name rest ih => rw [List.foldr_cons, mem_insertName, ih, List.mem_cons]

theorem get_eq_zero {t : Totals} {pool : String} (h : pool ∉ t.pools) : t.get pool = .zero := by
  rw [mem_pools, not_or, not_or] at h
  unfold get
  rw [Ledger.get_eq_zero h.1, Ledger.get_eq_zero h.2.1, Ledger.get_eq_zero h.2.2]
  rfl

theorem get_set (t : Totals) (pool : String) (d : Depths) (p : String) :
    (t.set pool d).get p = if p = pool then d else t.get p := by
  unfold set get
  simp only [Ledger.get_insert]
  split <;> rfl

end Totals

namespace Balances

def get (b : Balances) (pool : String) : Depths := b.totals.get pool

def pools (b : Balances) : List String := b.totals.pools

theorem mem_pools_add {b : Balances} {name : LedgerName} {target : String} {delta : Int}
    {pool : String} (h : pool ∈ b.pools) : pool ∈ (b.add name target delta).pools := by
  unfold add
  cases Checked.fit? (((b.ledger name).get target).toInt + delta) with
  | none => exact h
  | some sum =>
    unfold pools at h ⊢
    rw [Totals.mem_pools] at h ⊢
    cases name with
    | asset => exact h.imp_left Ledger.mem_keys_insert
    | rune => exact h.imp_right (Or.imp_left Ledger.mem_keys_insert)
    | synth => exact h.imp_right (Or.imp_right Ledger.mem_keys_insert)

/-- No pool is ever forgotten. -/
theorem mem_pools_post {b : Balances} {p : Posting} {pool : String} (h : pool ∈ b.pools) :
    pool ∈ (b.post p).pools := by
  cases p with
  | add name target delta => exact mem_pools_add h
  | set target d =>
    unfold pools at h ⊢
    rw [Totals.mem_pools] at h ⊢
    exact h.imp Ledger.mem_keys_insert (Or.imp Ledger.mem_keys_insert Ledger.mem_keys_insert)

theorem mem_pools_applyAll {planned : List PlannedChange} {pool : String} :
    ∀ {b b' : Balances}, b.applyAll planned = .ok b' → pool ∈ b.pools → pool ∈ b'.pools := by
  induction planned with
  | nil =>
    intro b b' h hpool
    cases h
    exact hpool
  | cons p rest ih =>
    intro b b' h hpool
    cases p with
    | error o => cases h
    | ok c => exact ih h (mem_pools_post hpool)

end Balances

/-! ### The rows of a block -/

namespace DepthHistory

def row (pool : String) (d : Depths) (timestamp : Int64) : Row :=
  ⟨"block_pool_depths", columns, values pool d timestamp⟩

theorem insertRow_eq (pool : String) (d : Depths) (timestamp : Int64) (s : Store) (i : Inserter) :
    insertRow pool d timestamp s i = i.insertRows s [row pool d timestamp] :=
  Inserter.insert_eq_insertRows rfl i s

/-- The rows of the pools whose depths differ from the last ones. -/
def dueRows (last current : String → Depths) (timestamp : Int64) (pools : List String) : List Row :=
  (pools.filter fun pool => current pool ≠ last pool).map fun pool => row pool (current pool) timestamp

/-- A pool that has not moved is passed over.  The row of one that has is taken, and the history goes
on from it; or it is refused, and the pool stays due; or it is a failure. -/
theorem recordPool_cases (t : Totals) (timestamp : Int64) (s : Store) {p : Progress}
    (hopen : p.inserter.Open) (pool : String) :
    (t.get pool = p.history.last.get pool ∧ recordPool t timestamp s p pool = (.ok (), p)) ∨
    t.get pool ≠ p.history.last.get pool ∧
      ((∃ i, recordPool t timestamp s p pool =
            (.ok (), ⟨⟨p.history.last.set pool (t.get pool)⟩, i, p.written + 1⟩) ∧ i.Open ∧
          i.pending = p.inserter.pending ++ [row pool (t.get pool) timestamp]) ∨
        (∃ e i, insertRow pool (t.get pool) timestamp s p.inserter = (.error e, i) ∧
          e.isRowRefusal = true ∧ recordPool t timestamp s p pool = (.ok (), { p with inserter := i }) ∧
          i.Open ∧ i.pending = p.inserter.pending) ∨
        ∃ e i, recordPool t timestamp s p pool = (.error e, { p with inserter := i }) ∧ i.Open ∧
          (i.pending = p.inserter.pending ∨ i.pending = [])) := by
  unfold recordPool
  by_cases heq : t.get pool = p.history.last.get pool
  · exact .inl ⟨heq, if_pos heq⟩
  · refine .inr ⟨heq, ?_⟩
    simp only [if_neg heq, insertRow_eq]
    rcases Inserter.insertRows_cases hopen s [row pool (t.get pool) timestamp] with
      ⟨i, hi, hopen', hpending⟩ | ⟨e, i, hi, hrefusal, -, hopen', hpending⟩ | ⟨e, i, hi, hrefusal, hopen', hpending⟩
    · rw [hi]
      exact .inl ⟨i, rfl, hopen', hpending⟩
    · rw [hi]
      simp only [hrefusal, if_true]
      exact .inr (.inl ⟨e, i, rfl, hrefusal, rfl, hopen', hpending⟩)
    · rw [hi]
      simp only [hrefusal]
      exact .inr (.inr ⟨e, i, rfl, hopen', hpending⟩)

/-- Whatever comes of a pool, the block stays open and nothing but its row is added. -/
theorem recordPool_open (t : Totals) (timestamp : Int64) (s : Store) {p : Progress}
    (hopen : p.inserter.Open) (pool : String) :
    (recordPool t timestamp s p pool).2.inserter.Open ∧
      (recordPool t timestamp s p pool).2.inserter.pending ⊆
        p.inserter.pending ++ [row pool (t.get pool) timestamp] := by
  rcases recordPool_cases t timestamp s hopen pool with
    ⟨-, hp⟩ | ⟨-, ⟨i, hp, hopen', hpending⟩ | ⟨-, i, -, -, hp, hopen', hpending⟩ | ⟨e, i, hp, hopen', hpending⟩⟩
  · rw [hp]
    exact ⟨hopen, List.subset_append_left _ _⟩
  · rw [hp]
    exact ⟨hopen', hpending ▸ List.Subset.refl _⟩
  · rw [hp]
    exact ⟨hopen', hpending ▸ List.subset_append_left _ _⟩
  · rw [hp]
    exact ⟨hopen', List.Subset.trans (Inserter.subset_of_kept hpending) (List.subset_append_left _ _)⟩

theorem strategy_recordPool (t : Totals) (timestamp : Int64) (s : Store) (p : Progress) (pool : String) :
    (recordPool t timestamp s p pool).2.inserter.strategy = p.inserter.strategy := by
  unfold recordPool
  by_cases heq : t.get pool = p.history.last.get pool
  · rw [if_pos heq]
  · have hkept := Inserter.strategy_insertRows p.inserter s [row pool (t.get pool) timestamp]
    simp only [if_neg heq, insertRow_eq]
    cases hinsert : p.inserter.insertRows s [row pool (t.get pool) timestamp] with
    | mk result i =>
      rw [hinsert] at hkept
      cases result <;> exact hkept

/-- Only the store makes a pool fail, and only under the tolerant strategy. -/
theorem recordPool_error {t : Totals} {timestamp : Int64} {s : Store} {p p' : Progress} {pool : String}
    {e : IndexerError} (hopen : p.inserter.Open) (h : recordPool t timestamp s p pool = (.error e, p')) :
    p.inserter.strategy = .tolerant ∧ ∃ f, e = .store f := by
  unfold recordPool at h
  by_cases heq : t.get pool = p.history.last.get pool
  · rw [if_pos heq] at h
    cases h
  · simp only [if_neg heq, insertRow_eq] at h
    cases hinsert : p.inserter.insertRows s [row pool (t.get pool) timestamp] with
    | mk result i =>
      rw [hinsert] at h
      cases result with
      | ok _ => cases h
      | error fault =>
        have hstore := Inserter.insertRows_error hopen hinsert
        dsimp only at h
        split at h <;> cases h
        exact hstore

/-- Whether the store takes no rows of depths. -/
def rejected (s : Store) : Bool := s.rejectedTables.contains "block_pool_depths"

theorem rejects_row (s : Store) (pool : String) (d : Depths) (timestamp : Int64) :
    s.rejects [row pool d timestamp] = rejected s :=
  Bool.or_false _

section

variable {s : Store} {t : Totals} {timestamp : Int64}

/-- Where rows of depths are rejected, no pool adds any. -/
theorem recordPools_of_rejected (t : Totals) (timestamp : Int64) (hrejected : rejected s = true)
    (pools : List String) :
    ∀ p : Progress, p.inserter.Open → s.CalmFor p.inserter.strategy →
      ∃ p', recordPools t timestamp s p pools = (.ok (), p') ∧ p'.inserter.Open ∧
        p'.inserter.strategy = p.inserter.strategy ∧ p'.inserter.pending = p.inserter.pending := by
  induction pools with
  | nil => exact fun p hopen _ => ⟨p, rfl, hopen, rfl, rfl⟩
  | cons pool rest ih =>
    intro p hopen hs
    unfold recordPools recordPool
    by_cases heq : t.get pool = p.history.last.get pool
    · simp only [if_pos heq]
      exact ih p hopen hs
    · obtain ⟨i, hopen', hstrategy, hi⟩ :=
        Inserter.insertRows_of_calm hopen hs [row pool (t.get pool) timestamp]
      rw [rejects_row, hrejected] at hi
      obtain ⟨e, hi, hrefusal, hpending⟩ := hi
      simp only [if_neg heq, insertRow_eq, hi, hrefusal, if_true]
      obtain ⟨p', hp', hopen'', hstrategy', hpending'⟩ :=
        ih { p with inserter := i } hopen' (hstrategy ▸ hs)
      exact ⟨p', hp', hopen'', hstrategy'.trans hstrategy, hpending'.trans hpending⟩

/-- Where rows of depths are taken, every pool whose depths have changed adds its row. -/
theorem recordPools_of_taken (t : Totals) (timestamp : Int64) {last : String → Depths}
    (hrejected : rejected s = false) (pools : List String) (hnodup : pools.Nodup) :
    ∀ p : Progress, p.inserter.Open → s.CalmFor p.inserter.strategy →
      (∀ pool ∈ pools, p.history.last.get pool = last pool) →
      ∃ p', recordPools t timestamp s p pools = (.ok (), p') ∧ p'.inserter.Open ∧
        p'.inserter.strategy = p.inserter.strategy ∧
        p'.inserter.pending = p.inserter.pending ++ dueRows last t.get timestamp pools ∧
        ∀ pool, p'.history.last.get pool =
          if pool ∈ pools then t.get pool else p.history.last.get pool := by
  induction pools with
  | nil => exact fun p hopen _ _ => ⟨p, rfl, hopen, rfl, (List.append_nil _).symm, fun _ => rfl⟩
  | cons pool rest ih =>
    intro p hopen hs hlast
    obtain ⟨hpool, hrest⟩ := List.nodup_cons.1 hnodup
    have hlastPool : p.history.last.get pool = last pool := hlast pool List.mem_cons_self
    unfold recordPools recordPool
    by_cases heq : t.get pool = p.history.last.get pool
    · -- the pool is not due
      obtain ⟨p', hp', hopen', hstrategy, hpending, hhistory⟩ :=
        ih hrest p hopen hs fun q hq => hlast q (List.mem_cons_of_mem _ hq)
      refine ⟨p', by simp only [if_pos heq, hp'], hopen', hstrategy, ?_, fun q => ?_⟩
      · rw [hpending, dueRows, dueRows, List.filter_cons_of_neg (by simp [heq, hlastPool])]
      · rw [hhistory q]
        by_cases hq : q = pool
        · subst hq
          rw [if_neg hpool, if_pos List.mem_cons_self, heq]
        · simp only [List.mem_cons, hq, false_or]
    · obtain ⟨i, hopen', hstrategy, hi⟩ :=
        Inserter.insertRows_of_calm hopen hs [row pool (t.get pool) timestamp]
      rw [rejects_row, hrejected] at hi
      obtain ⟨hi, hpending⟩ := hi
      obtain ⟨p', hp', hopen'', hstrategy', hpending', hhistory⟩ :=
        ih hrest ⟨⟨p.history.last.set pool (t.get pool)⟩, i, p.written + 1⟩ hopen' (hstrategy ▸ hs)
          fun q hq => by
            rw [Totals.get_set, if_neg (ne_of_mem_of_not_mem hq hpool)]
            exact hlast q (List.mem_cons_of_mem _ hq)
      refine ⟨p', ?_, hopen'', hstrategy'.trans hstrategy, ?_, fun q => ?_⟩
      · simp only [if_neg heq, insertRow_eq, hi, hp']
      · rw [hpending', hpending, dueRows, dueRows, List.filter_cons_of_pos (by simp [← hlastPool, heq]),
          List.map_cons, List.append_assoc, List.singleton_append]
      · rw [hhistory q, Totals.get_set]
        by_cases hq : q = pool
        · subst hq
          rw [if_neg hpool, if_pos rfl, if_pos List.mem_cons_self]
        · simp only [List.mem_cons, hq, false_or, if_false]

/-- What is held after the depths of a block, on a calm store: if rows of depths are taken, those of
the pools that have moved since `before`, and the history has caught up. -/
theorem record_of_calm {h : DepthHistory} {before : Balances} {i : Inserter} (t : Totals)
    (timestamp : Int64) (hopen : i.Open) (hs : s.CalmFor i.strategy)
    (hlast : rejected s = false → ∀ pool, h.last.get pool = before.get pool)
    (hgrows : ∀ pool ∈ before.pools, pool ∈ t.pools) :
    ∃ p, h.record t timestamp s i = (.ok (), p) ∧ p.inserter.Open ∧ p.inserter.strategy = i.strategy ∧
      p.inserter.pending =
        i.pending ++ (if rejected s then [] else dueRows before.get t.get timestamp t.pools) ∧
      (rejected s = false → ∀ pool, p.history.last.get pool = t.get pool) := by
  unfold DepthHistory.record
  cases hrejected : rejected s with
  | true =>
    obtain ⟨p, hp, hopen', hstrategy, hpending⟩ :=
      recordPools_of_rejected t timestamp hrejected t.pools ⟨h, i, 0⟩ hopen hs
    exact ⟨p, hp, hopen', hstrategy, hpending.trans (List.append_nil _).symm, fun hfalse => by cases hfalse⟩
  | false =>
    obtain ⟨p, hp, hopen', hstrategy, hpending, hhistory⟩ :=
      recordPools_of_taken t timestamp hrejected t.pools t.nodup_pools ⟨h, i, 0⟩
        hopen hs fun pool _ => hlast hrejected pool
    refine ⟨p, hp, hopen', hstrategy, hpending, fun _ pool => ?_⟩
    rw [hhistory pool]
    by_cases hpool : pool ∈ t.pools
    · rw [if_pos hpool]
    · have hbefore : before.get pool = .zero := Totals.get_eq_zero (mt (hgrows pool) hpool)
      rw [if_neg hpool, hlast hrejected pool, hbefore, Totals.get_eq_zero hpool]

end

end DepthHistory

end PoolIndexer
