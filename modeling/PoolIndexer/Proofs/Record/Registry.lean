import PoolIndexer.Proofs.Record.Replay

/-!
# Proofs.Record.Registry — the rows of an event are rows of their tables

* `Row.Fills`: a row has each column of its table once, in the order of the table, and a value in each that
  the column takes.  Whatever fills a registered table passes the check of rows.
* `Entry.Registered`: the names and types of an entry's cells are those that its table declares.
* `Event.Crosses`: a swap has exactly one native side.  `Event.SpreadsOver` says how many rows an event has
  and what they hold.
* `Event.rows_registered`: an event that crosses has all its rows, each of which fills its table.
-/

namespace PoolIndexer

/-! ### Rows that fill a table -/

/-- The row has every column of the table once and a fitting value in each. -/
structure Row.Fills (row : Row) (t : Table) : Prop where
  table : row.table = t.name
  columns : row.columns = t.columns.map Column.name
  once : row.columns.Nodup
  values : List.Forall₂ (fun c v => Value.fits c.type c.nullable v = true) t.columns row.values

/-- The row belongs to the table and has these values under these names. -/
def Row.Holds (row : Row) (table : String) (cells : List Cell) : Prop :=
  row.table = table ∧ ∀ cell ∈ cells, row.get? cell.1 = some cell.2

theorem Row.Holds.mono {row : Row} {table : String} {cells cells' : List Cell} (h : row.Holds table cells)
    (hsub : cells' ⊆ cells) : row.Holds table cells' := ⟨h.1, fun cell hcell => h.2 cell (hsub hcell)⟩

namespace Row

/-- **Check**: a row that fills its registered table is taken as it is. -/
theorem Fills.check {row : Row} {t : Table} (h : row.Fills t) (ht : Schema.table? row.table = some t) :
    Row.check row.table row.columns row.values = .ok row := by
  obtain ⟨hmem, hname⟩ := Schema.table?_eq_some_iff.1 ht
  refine check_eq_ok_iff.2 ⟨rfl, t, hmem, hname, ?_, fun cell hcell => ?_, fun c hc _ => ?_⟩
  · rw [h.columns, List.length_map]
    exact h.values.length_eq
  · rw [h.columns, List.zip_map_left] at hcell
    obtain ⟨⟨c, v⟩, hpair, rfl⟩ := List.mem_map.1 hcell
    exact ⟨c, (List.of_mem_zip hpair).1, rfl, Value.fits_iff.1 ((List.forall₂_iff_zip.1 h.values).2 hpair)⟩
  · rw [h.columns]
    exact List.mem_map_of_mem hc

end Row

/-! ### Cells under the columns of their table -/

namespace Entry

/-- The table of the entry declares its cells by name and type, in their order, and then the id and the time. -/
def Registered (entry : Entry) : Prop :=
  ∃ t, Schema.table? entry.table = some t ∧
    t.columns.map (fun c => (c.name, some c.type)) =
      entry.cells.map (fun cell => (cell.1, cell.2.type?)) ++
        [("event_id", some .bigint), ("block_timestamp", some .bigint)]

variable {entry : Entry} {id timestamp : Int64}

theorem Registered.fills (h : entry.Registered) (id timestamp : Int64) :
    ∃ t, Schema.table? entry.table = some t ∧ (entry.rowAt id timestamp).Fills t := by
  obtain ⟨t, ht, hcells⟩ := h
  have hdeclared : t.columns.map (fun c => (c.name, some c.type)) =
      (entry.cellsAt id timestamp).map fun cell => (cell.1, cell.2.type?) := by
    rw [hcells, cellsAt, List.map_append]
    rfl
  have hnames : (entry.cellsAt id timestamp).map (·.1) = t.columns.map Column.name := by
    have hfirst := congrArg (List.map Prod.fst) hdeclared
    rw [List.map_map, List.map_map] at hfirst
    exact hfirst.symm
  obtain ⟨hmem, hname⟩ := Schema.table?_eq_some_iff.1 ht
  refine ⟨t, ht, hname.symm, hnames, ?_, ?_⟩
  · show ((entry.cellsAt id timestamp).map (·.1)).Nodup
    rw [hnames]
    exact Schema.nodup_columns t hmem
  · have hpairs : List.Forall₂ (fun (c : Column) (cell : Cell) => (c.name, some c.type) = (cell.1, cell.2.type?))
        t.columns (entry.cellsAt id timestamp) :=
      List.forall₂_map_left_iff.1 (List.forall₂_map_right_iff.1 (List.forall₂_eq_eq_eq ▸ hdeclared))
    exact List.forall₂_map_right_iff.2
      (hpairs.imp fun _ _ h => Value.fits_of_type? (congrArg Prod.snd h).symm _)

/-- A registered entry has each of its cells in its row. -/
theorem Registered.holds (h : entry.Registered) (id timestamp : Int64) :
    (entry.rowAt id timestamp).Holds entry.table (entry.cellsAt id timestamp) := by
  obtain ⟨_, -, hfills⟩ := h.fills id timestamp
  refine ⟨rfl, fun cell hcell => ?_⟩
  rw [get?_rowAt]
  exact lookup_of_mem hfills.once hcell

theorem Registered.holds_cells (h : entry.Registered) (id timestamp : Int64) :
    (entry.rowAt id timestamp).Holds entry.table entry.cells :=
  (h.holds id timestamp).mono (List.subset_append_left _ _)

theorem Registered.row_eq_ok (h : entry.Registered) {m : Metadata} (hid : m.id.encode = .ok id) :
    entry.row m = .ok (entry.rowAt id m.timestamp) := by
  obtain ⟨t, ht, hfills⟩ := h.fills id m.timestamp
  have hcheck : Row.check entry.table ((entry.cellsAt id m.timestamp).map (·.1))
      ((entry.cellsAt id m.timestamp).map (·.2)) = .ok (entry.rowAt id m.timestamp) := hfills.check ht
  unfold cellsAt at hcheck
  unfold row
  rw [hid]
  dsimp only
  rw [hcheck]

end Entry

/-! ### The rows of an event -/

theorem SwapDirection.of?_eq_none_iff {natives : NativeNames} {s : Swap} :
    SwapDirection.of? natives s = none ↔ natives.contains s.source.asset = natives.contains s.target.asset := by
  have hside : ∀ asset, natives.classify asset = .native ↔ natives.contains asset = true := fun _ =>
    NativeNames.classify_eq_native_iff
  have hsource := hside s.source.asset
  have htarget := hside s.target.asset
  unfold of?
  cases hs : natives.classify s.source.asset <;> cases ht : natives.classify s.target.asset <;> simp_all

namespace Event

/-- Exactly one side of a swap is native; no other event has to cross a pool. -/
def Crosses (natives : NativeNames) : Event → Prop
  | .swap s => natives.contains s.source.asset ≠ natives.contains s.target.asset
  | _ => True

/-- A swap that names no pool settles against the one that backs it. -/
def settled (natives : NativeNames) : Event → Event
  | .swap s => .swap { s with pool := s.settlementPool natives }
  | e => e

/-- Rewards have a row for the bond and one for each pool, a slash has one for each amount, in order; every
other event has a single row with its fields. -/
def SpreadsOver (natives : NativeNames) (e : Event) (rows : List Row) : Prop :=
  match e with
  | .rewards r =>
    ∃ bond shares, rows = bond :: shares ∧ bond.Holds "rewards_events" [("bond_e8", .bigint r.bondE8)] ∧
      List.Forall₂ (fun (share : String × Int64) row =>
        Row.Holds row "rewards_event_entries" [("pool", .text share.1), ("rune_e8", .bigint share.2)])
        r.perPool shares
  | .slash s =>
    List.Forall₂ (fun (amount : Coin) row =>
      Row.Holds row "slash_events"
        [("pool", .text s.pool), ("asset", .text amount.asset), ("asset_e8", .bigint amount.e8)])
      s.amounts rows
  | e => ∃ row, rows = [row] ∧ row.Holds e.table (e.settled natives).cells

variable {natives : NativeNames} {e : Event} {entries : List Entry}

theorem rowEntries_of_crosses (h : e.Crosses natives) : ∃ entries, e.rowEntries natives = .ok entries := by
  cases e with
  | swap s =>
    cases hdirection : SwapDirection.of? natives s with
    | none => exact absurd (SwapDirection.of?_eq_none_iff.1 hdirection) h
    | some direction =>
      unfold rowEntries
      simp only [hdirection]
      exact ⟨_, rfl⟩
  | _ => exact ⟨_, rfl⟩

theorem rowEntries_of_not_crosses (h : ¬ e.Crosses natives) :
    e.rowEntries natives = .error (.protocol "swap without exactly one native side") := by
  cases e with
  | swap s =>
    unfold rowEntries
    simp only [SwapDirection.of?_eq_none_iff.2 (not_not.1 h)]
  | _ => exact absurd trivial h

/-- Whatever its kind, an event leaves cells that the tables declare. -/
theorem registered_rowEntries (h : e.rowEntries natives = .ok entries) : ∀ entry ∈ entries, entry.Registered := by
  cases e with
  | swap s =>
    unfold rowEntries at h
    cases hdirection : SwapDirection.of? natives s with
    | none =>
      simp only [hdirection] at h
      cases h
    | some direction =>
      simp only [hdirection] at h
      cases h
      exact List.forall_mem_singleton.2 ⟨_, rfl, rfl⟩
  | rewards r =>
    cases h
    refine List.forall_mem_cons.2 ⟨⟨_, rfl, rfl⟩, fun entry hentry => ?_⟩
    obtain ⟨share, -, rfl⟩ := List.mem_map.1 hentry
    exact ⟨_, rfl, rfl⟩
  | slash s =>
    cases h
    intro entry hentry
    obtain ⟨amount, -, rfl⟩ := List.mem_map.1 hentry
    exact ⟨_, rfl, rfl⟩
  | _ =>
    cases h
    exact List.forall_mem_singleton.2 ⟨_, rfl, rfl⟩

theorem spreadsOver_rows (h : e.rowEntries natives = .ok entries) (id timestamp : Int64) :
    e.SpreadsOver natives (entries.map (Entry.rowAt id timestamp)) := by
  have hholds : ∀ entry ∈ entries, (entry.rowAt id timestamp).Holds entry.table entry.cells :=
    fun entry hentry => (registered_rowEntries h entry hentry).holds_cells id timestamp
  cases e with
  | swap s =>
    unfold rowEntries at h
    cases hdirection : SwapDirection.of? natives s with
    | none =>
      simp only [hdirection] at h
      cases h
    | some direction =>
      simp only [hdirection] at h
      cases h
      exact ⟨_, rfl, (hholds _ List.mem_cons_self).mono (List.subset_append_left _ _)⟩
  | rewards r =>
    cases h
    obtain ⟨hbond, hshares⟩ := List.forall_mem_cons.1 hholds
    refine ⟨_, _, rfl, hbond, ?_⟩
    rw [List.map_map, List.forall₂_map_right_iff, List.forall₂_same]
    exact fun share hshare => hshares _ (List.mem_map_of_mem hshare)
  | slash s =>
    cases h
    show List.Forall₂ _ s.amounts _
    rw [List.map_map, List.forall₂_map_right_iff, List.forall₂_same]
    exact fun amount hamount => hholds _ (List.mem_map_of_mem hamount)
  | depthOverride d =>
    cases h
    exact ⟨_, rfl, (hholds _ List.mem_cons_self).mono (List.subset_append_left _ _)⟩
  | _ =>
    cases h
    exact ⟨_, rfl, hholds _ List.mem_cons_self⟩

/-- **Recorder and registry agree**: under an id that has a code, an event is refused as a whole if it is a swap
without exactly one native side.  Any other event has all its rows; each is taken by the check of rows, fills
its table and carries the code of the id and the time of the event. -/
theorem rows_registered (natives : NativeNames) (e : Event) {m : Metadata} {id : Int64}
    (hid : m.id.encode = .ok id) :
    (e.Crosses natives → ∃ rows, e.rows natives m = .ok rows ∧ e.SpreadsOver natives rows ∧
      ∀ row ∈ rows, Row.check row.table row.columns row.values = .ok row ∧
        (∃ t, Schema.table? row.table = some t ∧ row.Fills t) ∧
        row.get? "event_id" = some (.bigint id) ∧
        row.get? "block_timestamp" = some (.bigint m.timestamp)) ∧
      (¬ e.Crosses natives →
        e.rows natives m = .error (.error (.protocol "swap without exactly one native side"))) := by
  constructor
  · intro hcrosses
    obtain ⟨entries, hentries⟩ := rowEntries_of_crosses hcrosses
    have hregistered := registered_rowEntries hentries
    refine ⟨entries.map (Entry.rowAt id m.timestamp), ?_, spreadsOver_rows hentries id m.timestamp, ?_⟩
    · unfold rows
      rw [hentries]
      exact mapM_eq_ok fun entry hentry => (hregistered entry hentry).row_eq_ok hid
    · intro row hrow
      obtain ⟨entry, hentry, rfl⟩ := List.mem_map.1 hrow
      obtain ⟨t, ht, hfills⟩ := (hregistered entry hentry).fills id m.timestamp
      obtain ⟨-, hcells⟩ := (hregistered entry hentry).holds id m.timestamp
      refine ⟨hfills.check ht, ⟨t, ht, hfills⟩, hcells _ (List.mem_append_right _ List.mem_cons_self), ?_⟩
      exact hcells _ (List.mem_append_right _ (List.mem_cons_of_mem _ List.mem_cons_self))
  · intro hnot
    unfold rows
    rw [rowEntries_of_not_crosses hnot]

/-- Rewards of two pools leave three rows, all under the code of one id. -/
theorem rows_registered_rewards :
    let m := Metadata.of 7 42 .end 3
    let e := Event.rewards ⟨9, [("BTC.BTC", 5), ("ETH.ETH", -5)]⟩
    m.id.encode = .ok 7200000003 ∧ ∃ rows, e.rows .default m = .ok rows ∧ e.SpreadsOver .default rows ∧
      rows.length = 3 ∧ ∀ row ∈ rows, row.get? "event_id" = some (.bigint 7200000003) := by
  intro m e
  have hid : m.id.encode = .ok 7200000003 := by decide +kernel
  obtain ⟨hrows, -⟩ := rows_registered .default e hid
  obtain ⟨rows, hok, hspreads, hall⟩ := hrows trivial
  refine ⟨hid, rows, hok, hspreads, ?_, fun row hrow => (hall row hrow).2.2.1⟩
  obtain ⟨bond, shares, rfl, -, hshares⟩ := hspreads
  exact congrArg Nat.succ hshares.length_eq.symm

end Event

end PoolIndexer
