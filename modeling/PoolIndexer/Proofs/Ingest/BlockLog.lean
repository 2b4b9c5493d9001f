import PoolIndexer.Ingest.Ingestor
import PoolIndexer.Proofs.Record.DepthHistory
import PoolIndexer.Proofs.Record.Replay
import PoolIndexer.Proofs.Record.Snapshot

/-!
# Proofs.Ingest.BlockLog — the block ledger as its rows give it

Only an ingestor writes rows of the ledger, one for each block.  If the last row of a store is a
block with its totals and no other block is higher, it is the latest checkpoint, and a new start goes
on right above it.
-/

namespace PoolIndexer

/-! ### Rows of the ledger -/

namespace Row

/-- The height that a row of the block ledger stands for. -/
def blockHeight? (r : Row) : Option Int :=
  ((r.get? "height").bind Value.int64?).map Int64.toInt

end Row

/-- The rows of the block ledger among other rows. -/
def blockRows (rows : List Row) : List Row := rows.filter fun r => r.table = "block_log"

namespace Block

/-- The row of a block in the ledger, with the totals after it if it commits. -/
def row (b : Block) (state : Option (List UInt8)) : Row :=
  ⟨"block_log", Ingestor.ledgerColumns, Ingestor.ledgerValues b state⟩

@[simp] theorem blockHeight?_row (b : Block) (state : Option (List UInt8)) :
    (b.row state).blockHeight? = some b.height.toInt := rfl

/-- The checkpoint of a block that commits. -/
def checkpoint (b : Block) (state : List UInt8) : Checkpoint := ⟨b.height, b.nanos, b.hash, state⟩

/-- The cells of a block pass the check of the ledger. -/
theorem check_row (b : Block) (state : Option (List UInt8)) :
    Row.check "block_log" Ingestor.ledgerColumns (Ingestor.ledgerValues b state) = .ok (b.row state) := by
  cases state <;> rfl

end Block

@[simp] theorem blockRows_append (xs ys : List Row) :
    blockRows (xs ++ ys) = blockRows xs ++ blockRows ys :=
  List.filter_append ..

theorem blockRows_subset {xs ys : List Row} (h : xs ⊆ ys) : blockRows xs ⊆ blockRows ys :=
  List.filter_subset _ h

@[simp] theorem blockRows_row (b : Block) (state : Option (List UInt8)) :
    blockRows [b.row state] = [b.row state] := rfl

@[simp] theorem blockRows_depthRow (pool : String) (d : Depths) (timestamp : Int64) :
    blockRows [DepthHistory.row pool d timestamp] = [] := rfl

/-! ### Rows of other tables -/

namespace Event

/-- The tables that events write to. -/
def IsTable (name : String) : Prop :=
  "_events".toList <:+ name.toList ∨ name = "rewards_event_entries"

instance (name : String) : Decidable (IsTable name) :=
  inferInstanceAs (Decidable (_ ∨ _))

theorem isTable_table (e : Event) : IsTable e.table := by
  refine .inl ⟨e.kind.toList, ?_⟩
  rw [← String.toList_append]
  rfl

theorem isTable_rowEntries {natives : NativeNames} {e : Event} {entries : List Entry}
    (h : e.rowEntries natives = .ok entries) : ∀ entry ∈ entries, IsTable entry.table := by
  unfold Event.rowEntries at h
  split at h
  · split at h
    · cases h
      exact List.forall_mem_singleton.2 (isTable_table _)
    · cases h
  · cases h
    refine List.forall_mem_cons.2 ⟨isTable_table _, fun entry hentry => ?_⟩
    obtain ⟨share, -, rfl⟩ := List.mem_map.1 hentry
    exact .inr rfl
  · cases h
    intro entry hentry
    obtain ⟨amount, -, rfl⟩ := List.mem_map.1 hentry
    exact isTable_table _
  · cases h
    exact List.forall_mem_singleton.2 (isTable_table _)
  · cases h
    exact List.forall_mem_singleton.2 (isTable_table _)

/-- The rows of an event are rows of the tables of events. -/
theorem isTable_rows {natives : NativeNames} {m : Metadata} {e : Event} {rows : List Row}
    (h : e.rows natives m = .ok rows) : ∀ r ∈ rows, IsTable r.table := by
  obtain ⟨entries, id, hentries, rfl, -⟩ := Event.rows_eq_ok h
  intro r hr
  obtain ⟨entry, hentry, rfl⟩ := List.mem_map.1 hr
  rw [Entry.table_rowAt]
  exact isTable_rowEntries hentries entry hentry

/-- An event writes no row of the ledger. -/
theorem blockRows_rows {natives : NativeNames} {m : Metadata} {e : Event} {rows : List Row}
    (h : e.rows natives m = .ok rows) : blockRows rows = [] := by
  refine List.filter_eq_nil_iff.2 fun r hr htable => ?_
  have hevent : IsTable "block_log" := of_decide_eq_true htable ▸ isTable_rows h r hr
  exact absurd hevent (by decide)

end Event

/-! ### The latest checkpoint -/

namespace Store

theorem checkpointOf?_height {r : Row} {c : Checkpoint} (h : checkpointOf? r = some c) :
    r.blockHeight? = some c.height.toInt := by
  simp only [checkpointOf?, Option.bind_eq_bind, Option.bind_eq_some_iff, Option.pure_def] at h
  obtain ⟨cell, hcell, height, hheight, _, -, _, -, _, -, _, -, _, -, _, -, hc⟩ := h
  cases hc
  rw [Row.blockHeight?, hcell, Option.bind_some, hheight, Option.map_some]

/-- The checkpoints among rows in the order of writing. -/
def checkpointsIn (rows : List Row) : List Checkpoint := (blockRows rows).filterMap checkpointOf?

theorem checkpointsIn_append (xs ys : List Row) :
    checkpointsIn (xs ++ ys) = checkpointsIn xs ++ checkpointsIn ys := by
  unfold checkpointsIn
  rw [blockRows_append, List.filterMap_append]

/-- Only rows of the ledger matter. -/
theorem checkpointsIn_subset {xs ys : List Row} (h : blockRows xs ⊆ blockRows ys) :
    checkpointsIn xs ⊆ checkpointsIn ys :=
  List.filterMap_subset _ h

theorem height_of_checkpointsIn_row {b : Block} {state : Option (List UInt8)} {c : Checkpoint}
    (h : c ∈ checkpointsIn [b.row state]) : c.height.toInt = b.height.toInt := by
  obtain ⟨r, hr, hc⟩ := List.mem_filterMap.1 h
  rw [blockRows_row, List.mem_singleton] at hr
  have hheight := checkpointOf?_height hc
  rw [hr, Block.blockHeight?_row] at hheight
  exact (Option.some.inj hheight).symm

/-- The later checkpoint is one of those there are. -/
theorem foldl_laterOf_mem {cs : List Checkpoint} {c : Checkpoint} {best : Option Checkpoint}
    (h : cs.foldl laterOf best = some c) : c ∈ cs ∨ best = some c := by
  induction cs generalizing best with
  | nil => exact .inr h
  | cons d rest ih =>
    rcases ih h with hrest | hstep
    · exact .inl (List.mem_cons_of_mem _ hrest)
    · unfold laterOf at hstep
      split at hstep
      · split at hstep
        · exact .inr hstep
        · cases hstep
          exact .inl List.mem_cons_self
      · cases hstep
        exact .inl List.mem_cons_self

/-- Of no checkpoint that is folded in the height is greater than that of the latest. -/
theorem le_foldl_laterOf {cs : List Checkpoint} {c : Checkpoint} {best : Option Checkpoint}
    (h : cs.foldl laterOf best = some c) :
    ∀ d, d ∈ cs ∨ best = some d → d.height.toInt ≤ c.height.toInt := by
  induction cs generalizing best with
  | nil =>
    rintro d (hd | hd)
    · cases hd
    · rw [List.foldl_nil, hd] at h
      cases h
      exact Int.le_refl _
  | cons e rest ih =>
    have hrest := ih h
    rintro d (hd | hd)
    · rcases List.mem_cons.1 hd with rfl | hd
      · unfold laterOf at hrest
        split at hrest
        · split at hrest
          · rename_i hlt
            exact Int.le_trans (Int.le_of_lt hlt) (hrest _ (.inr rfl))
          · exact hrest d (.inr rfl)
        · exact hrest d (.inr rfl)
      · exact hrest d (.inl hd)
    · unfold laterOf at hrest
      rw [hd] at hrest
      dsimp only at hrest
      split at hrest
      · exact hrest d (.inr rfl)
      · rename_i hle
        exact Int.le_trans (Int.not_lt.1 hle) (hrest e (.inr rfl))

/-- No checkpoint is higher than the latest. -/
theorem le_latestCheckpoint {s : Store} {c : Checkpoint} (h : s.latestCheckpoint = some c) :
    ∀ d ∈ checkpointsIn s.rows, d.height.toInt ≤ c.height.toInt :=
  fun d hd => le_foldl_laterOf h d (.inl hd)

/-- Where there are checkpoints, one of them is the latest. -/
theorem latestCheckpoint_of_mem {s : Store} {c : Checkpoint} (h : c ∈ checkpointsIn s.rows) :
    ∃ best, s.latestCheckpoint = some best := by
  have hstays : ∀ (cs : List Checkpoint) (best : Checkpoint), ∃ d, cs.foldl laterOf (some best) = some d := by
    intro cs
    induction cs with
    | nil => exact fun best => ⟨best, rfl⟩
    | cons d rest ih =>
      intro best
      rw [List.foldl_cons, laterOf]
      split
      · exact ih best
      · exact ih d
  unfold latestCheckpoint
  rw [show s.checkpoints = checkpointsIn s.rows from rfl]
  cases hcs : checkpointsIn s.rows with
  | nil =>
    rw [hcs] at h
    cases h
  | cons d rest => exact hstays rest d

/-- The last row of the ledger is the latest checkpoint if it has the totals and no checkpoint before
it is higher. -/
theorem latestCheckpoint_of_last {s : Store} {front : List Row} {b : Block} {state : List UInt8}
    (hrows : s.rows = front ++ [b.row (some state)])
    (hheights : ∀ c ∈ checkpointsIn front, c.height.toInt ≤ b.height.toInt) :
    s.latestCheckpoint = some (b.checkpoint state) := by
  have hcheckpoints : s.checkpoints = checkpointsIn front ++ [b.checkpoint state] := by
    show checkpointsIn s.rows = _
    rw [hrows, checkpointsIn_append]
    rfl
  unfold latestCheckpoint
  rw [hcheckpoints, List.foldl_append]
  cases hbest : (checkpointsIn front).foldl laterOf none with
  | none => rfl
  | some best =>
    have hle : ¬ b.height.toInt < best.height.toInt := by
      rcases foldl_laterOf_mem hbest with hmem | hnone
      · exact Int.not_lt.2 (hheights best hmem)
      · cases hnone
    exact if_neg hle

/-- The last row of the ledger is the latest checkpoint if it has the totals and no row is higher. -/
theorem latestCheckpoint_eq {s : Store} {front : List Row} {b : Block} {state : List UInt8}
    (hrows : s.rows = front ++ [b.row (some state)])
    (hheights : ∀ r ∈ blockRows front, ∀ h, r.blockHeight? = some h → h ≤ b.height.toInt) :
    s.latestCheckpoint = some (b.checkpoint state) := by
  refine latestCheckpoint_of_last hrows fun c hc => ?_
  obtain ⟨r, hr, hrc⟩ := List.mem_filterMap.1 hc
  exact hheights r hr _ (checkpointOf?_height hrc)

theorem latestCheckpoint_eq_none {s : Store} (hrows : s.rows = []) : s.latestCheckpoint = none := by
  unfold latestCheckpoint checkpoints rowsOf
  rw [hrows]
  rfl

end Store

/-! ### A new start -/

namespace Recovered

/-- A new start from a written snapshot has its balances and goes on right above it. -/
theorem ofStore_eq {s : Store} {b : Block} {t : Totals} {state : List UInt8}
    (hlatest : s.latestCheckpoint = some (b.checkpoint state)) (hstate : Snapshot.write t = .ok state)
    (startHeight : Int64) :
    ofStore s startHeight =
      match Checked.add b.height 1 with
      | .ok next =>
        .ok ⟨{ t with overflows := 0 }, next,
          some ⟨b.height, b.nanos, b.hash, { t with overflows := 0 }⟩⟩
      | .error o => .error (.overflow o) := by
  have htrack : Track.ofCheckpoint (b.checkpoint state) =
      .ok ⟨b.height, b.nanos, b.hash, { t with overflows := 0 }⟩ := by
    unfold Track.ofCheckpoint
    rw [show (b.checkpoint state).state = state from rfl, Snapshot.decode_of_write hstate]
    rfl
  unfold ofStore
  rw [hlatest]
  simp only [htrack, afterTrack]
  cases Checked.add b.height 1 <;> rfl

theorem ofStore_eq_fresh {s : Store} (hrows : s.rows = []) (startHeight : Int64) :
    ofStore s startHeight = .ok (fresh startHeight) := by
  unfold ofStore
  rw [Store.latestCheckpoint_eq_none hrows]

end Recovered

end PoolIndexer
