import PoolIndexer.Proofs.Event.Id
import PoolIndexer.Proofs.Record.Balances
import PoolIndexer.Proofs.Table.Row
import PoolIndexer.Record.Rows

/-!
# Proofs.Record.Replay — the balances that stored rows add up to

A rule for each table says what one of its rows posts; rows of all other tables post nothing.
Replaying rows in the order of writing gives the balances.  The rows of an event post what the event
changes, so nothing but the rows is needed to find the balances again.
-/

namespace PoolIndexer

namespace Row

/-- The text of a column, the amount in it, and the word that holds the amount. -/
def text (r : Row) (column : String) : String := ((r.get? column).bind Value.text?).getD ""

def word (r : Row) (column : String) : Int64 := ((r.get? column).bind Value.int64?).getD 0

def amount (r : Row) (column : String) : Int := (r.word column).toInt

/-- The height of the block that the event of the row comes from. -/
def eventHeight (r : Row) : Int := ((EventId.decode? (r.word "event_id")).map (·.height.toInt)).getD 0

end Row

/-! ### The depth rules -/

namespace DepthRules

/-- Both sides of a pool, as the row gives them. -/
def twoSided (pool : String) (r : Row) : List Posting :=
  [.add .asset (r.text pool) (r.amount "asset_e8"), .add .rune (r.text pool) (r.amount "rune_e8")]

/-- By direction: native for asset, asset for native, native for synth, synth for native. -/
def swap (r : Row) : List Posting :=
  let pool := r.text "pool"
  let source := r.amount "from_e8"
  let target := r.amount "to_e8"
  match r.amount "_direction" with
  | 0 => [.add .rune pool source, .add .asset pool (-target)]
  | 1 => [.add .asset pool source, .add .rune pool (-target)]
  | 2 => [.add .rune pool source, .add .synth pool target]
  | 3 => [.add .synth pool (-source), .add .rune pool (-target)]
  | _ => []

/-- Below the cutover the coin sent along stays in the pool if it is one of its two sides. -/
def withdraw (natives : NativeNames) (coinKeptBelow : Option Int64) (r : Row) : List Posting :=
  let pool := r.text "pool"
  let coin := r.text "asset"
  let kept := match coinKeptBelow with
    | some cutover => decide (r.eventHeight < cutover.toInt)
    | none => false
  [.add .asset pool (-r.amount "emit_asset_e8"), .add .rune pool (-r.amount "emit_rune_e8"),
    .add .rune pool (r.amount "imp_loss_protection_e8")] ++
    if kept then
      if natives.contains coin then [.add .rune pool (r.amount "asset_e8")]
      else if coin = pool then [.add .asset pool (r.amount "asset_e8")]
      else []
    else []

def fee (natives : NativeNames) (r : Row) : List Posting :=
  if natives.contains (r.text "asset") then []
  else
    let pool := Asset.pool (r.text "asset")
    [.add .asset pool (r.amount "asset_e8"), .add .rune pool (-r.amount "pool_deduct")]

def gas (r : Row) : List Posting :=
  [.add .asset (r.text "asset") (-r.amount "asset_e8"), .add .rune (r.text "asset") (r.amount "rune_e8")]

def poolStatus (r : Row) : List Posting :=
  if (r.text "status").toList.map Char.toLower == "suspended".toList then
    [.set (r.text "asset") .zero]
  else []

def reward (r : Row) : List Posting := [.add .rune (r.text "pool") (r.amount "rune_e8")]

def slash (natives : NativeNames) (r : Row) : List Posting :=
  [.add (if natives.contains (r.text "asset") then .rune else .asset) (r.text "pool")
    (r.amount "asset_e8")]

def depthOverride (r : Row) : List Posting :=
  [.set (r.text "pool") ⟨r.word "asset_e8", r.word "rune_e8", r.word "synth_e8"⟩]

/-- The tables whose rows move balances. -/
def byTable (natives : NativeNames) (coinKeptBelow : Option Int64) :
    List (String × (Row → List Posting)) :=
  [("add_events", twoSided "pool"),
    ("add_liquidity_events", twoSided "pool"),
    ("swap_events", swap),
    ("withdraw_events", withdraw natives coinKeptBelow),
    ("pool_events", poolStatus),
    ("fee_events", fee natives),
    ("gas_events", gas),
    ("errata_events", twoSided "asset"),
    ("pool_balance_change_events", twoSided "asset"),
    ("rewards_event_entries", reward),
    ("slash_events", slash natives),
    ("depth_override_events", depthOverride)]

end DepthRules

/-- What a row posts; a table without a rule moves nothing. -/
def Row.postings (natives : NativeNames) (coinKeptBelow : Option Int64) (r : Row) : List Posting :=
  match (DepthRules.byTable natives coinKeptBelow).lookup r.table with
  | some rule => rule r
  | none => []

/-- The balances that rows add up to in their order. -/
def Balances.replay (natives : NativeNames) (coinKeptBelow : Option Int64) (rows : List Row) :
    Balances :=
  rows.foldl (fun b r => b.postAll (r.postings natives coinKeptBelow)) .empty

section

variable {natives : NativeNames} {coinKeptBelow : Option Int64}

namespace Balances

theorem foldl_postings (rows : List Row) (b : Balances) :
    rows.foldl (fun b r => b.postAll (r.postings natives coinKeptBelow)) b =
      b.postAll (rows.flatMap (Row.postings natives coinKeptBelow)) := by
  induction rows generalizing b with
  | nil => rfl
  | cons r rows ih => rw [List.foldl_cons, ih, List.flatMap_cons, postAll_append]

theorem replay_append (xs ys : List Row) :
    replay natives coinKeptBelow (xs ++ ys) =
      (replay natives coinKeptBelow xs).postAll (ys.flatMap (Row.postings natives coinKeptBelow)) := by
  unfold replay
  rw [List.foldl_append, foldl_postings ys]

end Balances

theorem Row.postings_of_lookup_eq_none {r : Row}
    (h : (DepthRules.byTable natives coinKeptBelow).lookup r.table = none) :
    r.postings natives coinKeptBelow = [] := by
  unfold Row.postings
  rw [h]

/-! ### Rows as their entries give them -/

namespace Entry

/-- The cells of an entry with the id and the time of its event. -/
def cellsAt (id timestamp : Int64) (entry : Entry) : List Cell :=
  entry.cells ++ [("event_id", .bigint id), ("block_timestamp", .bigint timestamp)]

def rowAt (id timestamp : Int64) (entry : Entry) : Row :=
  ⟨entry.table, (entry.cellsAt id timestamp).map (·.1), (entry.cellsAt id timestamp).map (·.2)⟩

@[simp] theorem table_rowAt (id timestamp : Int64) (entry : Entry) :
    (entry.rowAt id timestamp).table = entry.table := rfl

theorem get?_rowAt (id timestamp : Int64) (entry : Entry) (column : String) :
    (entry.rowAt id timestamp).get? column = (entry.cellsAt id timestamp).lookup column := by
  simp only [Row.get?, rowAt, List.zip_map', List.map_id']

theorem row_eq_ok {m : Metadata} {entry : Entry} {row : Row} (h : entry.row m = .ok row) :
    ∃ id, m.id.encode = .ok id ∧ row = entry.rowAt id m.timestamp := by
  unfold Entry.row at h
  split at h
  · cases h
  · rename_i id hid
    dsimp only at h
    split at h
    · cases h
    · rename_i r hr
      cases h
      exact ⟨id, hid, Row.eq_of_check hr⟩

theorem mapM_row_eq_ok {m : Metadata} {entries : List Entry} {rows : List Row}
    (h : entries.mapM (Entry.row m) = .ok rows) :
    ∃ id, rows = entries.map (rowAt id m.timestamp) ∧ (entries = [] ∨ m.id.encode = .ok id) := by
  induction entries generalizing rows with
  | nil =>
    cases h
    exact ⟨0, rfl, .inl rfl⟩
  | cons entry entries ih =>
    rw [List.mapM_cons] at h
    cases hrow : entry.row m with
    | error e =>
      rw [hrow] at h
      cases h
    | ok row =>
      rw [hrow] at h
      obtain ⟨id, hid, rfl⟩ := row_eq_ok hrow
      cases hrest : entries.mapM (Entry.row m) with
      | error e =>
        rw [hrest] at h
        cases h
      | ok rest =>
        rw [hrest] at h
        cases h
        obtain ⟨id', rfl, rfl | hid'⟩ := ih hrest
        · exact ⟨id, rfl, .inr hid⟩
        · cases hid.symm.trans hid'
          exact ⟨id, rfl, .inr hid⟩

end Entry

/-- The rows of an event are those of its entries, all under the id of the event. -/
theorem Event.rows_eq_ok {m : Metadata} {e : Event} {rows : List Row}
    (h : e.rows natives m = .ok rows) :
    ∃ entries id, e.rowEntries natives = .ok entries ∧ rows = entries.map (Entry.rowAt id m.timestamp) ∧
      (entries = [] ∨ m.id.encode = .ok id) := by
  unfold Event.rows at h
  cases hentries : e.rowEntries natives with
  | error fault =>
    rw [hentries] at h
    cases h
  | ok entries =>
    rw [hentries] at h
    obtain ⟨id, hrows, hid⟩ := Entry.mapM_row_eq_ok h
    exact ⟨entries, id, rfl, hrows, hid⟩

/-! ### The rows of an event post its changes -/

/-- An event is recorded at its own height, and a withdrawal at an index that fits under its phase. -/
structure Event.PlacedAt (e : Event) (m : Metadata) : Prop where
  height : m.id.height = m.height
  index : ∀ w, e = .withdraw w → m.id.index.toNat ≤ EventId.maxIndex

theorem eventHeight_rowAt {m : Metadata} {id : Int64} {entry : Entry} (henc : m.id.encode = .ok id)
    (hindex : m.id.index.toNat ≤ EventId.maxIndex)
    (hcell : (entry.cellsAt id m.timestamp).lookup "event_id" = some (.bigint id)) :
    (entry.rowAt id m.timestamp).eventHeight = m.id.height.toInt := by
  have hword : (entry.rowAt id m.timestamp).word "event_id" = id := by
    rw [Row.word, Entry.get?_rowAt, hcell]
    rfl
  rw [Row.eventHeight, hword, EventId.decode?_of_encode henc hindex]
  rfl

section

variable {id timestamp height : Int64}

open PlannedChange

/-- Both sides of a pool as two inflows. -/
theorem posts_twoSided (pool : String) (assetE8 runeE8 : Int64) :
    List.Forall₂ Posts [inflow .asset pool assetE8, inflow .rune pool runeE8]
      [.add .asset pool assetE8.toInt, .add .rune pool runeE8.toInt] :=
  .cons (posts_inflow _ _ _) (.cons (posts_inflow _ _ _) .nil)

/-- A list of items, each with a change and a row of its own. -/
theorem posts_map {α : Type} {change : α → PlannedChange} {entry : α → Entry} {posting : α → Posting}
    (hchange : ∀ x, Posts (change x) (posting x))
    (hrow : ∀ x, ((entry x).rowAt id timestamp).postings natives coinKeptBelow = [posting x]) (xs : List α) :
    List.Forall₂ Posts (xs.map change)
      (((xs.map entry).map (Entry.rowAt id timestamp)).flatMap (Row.postings natives coinKeptBelow)) := by
  induction xs with
  | nil => exact .nil
  | cons x rest ih =>
    simp only [List.map_cons, List.flatMap_cons, hrow]
    exact .cons (hchange x) ih

theorem Swap.postings_rowAt (e : Swap) (direction : SwapDirection) :
    (Entry.rowAt id timestamp ⟨"swap_events", Event.swapCells natives direction e⟩).postings natives
        coinKeptBelow =
      let pool := e.settlementPool natives
      match direction with
      | .runeToAsset => [.add .rune pool e.source.e8.toInt, .add .asset pool (-e.target.e8.toInt)]
      | .assetToRune => [.add .asset pool e.source.e8.toInt, .add .rune pool (-e.target.e8.toInt)]
      | .runeToSynth => [.add .rune pool e.source.e8.toInt, .add .synth pool e.target.e8.toInt]
      | .synthToRune => [.add .synth pool (-e.source.e8.toInt), .add .rune pool (-e.target.e8.toInt)] := by
  cases direction <;> rfl

theorem Swap.posts {e : Swap} {direction : SwapDirection}
    (hdirection : SwapDirection.of? natives e = some direction) :
    List.Forall₂ Posts (e.changes natives)
      ((Entry.rowAt id timestamp ⟨"swap_events", Event.swapCells natives direction e⟩).postings natives
        coinKeptBelow) := by
  rw [postings_rowAt]
  unfold Swap.changes
  simp only [hdirection]
  cases direction with
  | runeToAsset => exact .cons (posts_inflow _ _ _) (.cons (posts_outflow _ _ _) .nil)
  | assetToRune => exact .cons (posts_inflow _ _ _) (.cons (posts_outflow _ _ _) .nil)
  | runeToSynth => exact .cons (posts_inflow _ _ _) (.cons (posts_inflow _ _ _) .nil)
  | synthToRune => exact .cons (posts_outflow _ _ _) (.cons (posts_outflow _ _ _) .nil)

theorem Withdraw.posts {e : Withdraw}
    (hheight : (Entry.rowAt id timestamp ⟨"withdraw_events", (Event.withdraw e).cells⟩).eventHeight =
      height.toInt) :
    List.Forall₂ Posts (e.changes natives coinKeptBelow height)
      ((Entry.rowAt id timestamp ⟨"withdraw_events", (Event.withdraw e).cells⟩).postings natives
        coinKeptBelow) := by
  show List.Forall₂ Posts _ (DepthRules.withdraw natives coinKeptBelow _)
  unfold Withdraw.changes DepthRules.withdraw
  rw [hheight]
  refine .cons (posts_outflow _ _ _) (.cons (posts_outflow _ _ _) (.cons (posts_inflow _ _ _) ?_))
  cases coinKeptBelow with
  | none => exact .nil
  | some cutover =>
    by_cases hkept : height.toInt < cutover.toInt
    · simp only [hkept, decide_true, if_true]
      unfold Withdraw.coinChanges
      show List.Forall₂ Posts _ (if natives.contains e.coin.asset then _ else _)
      split
      · exact .cons (posts_inflow _ _ _) .nil
      · show List.Forall₂ Posts _ (if e.coin.asset = e.pool then _ else _)
        split
        · exact .cons (posts_inflow _ _ _) .nil
        · exact .nil
    · simp only [hkept, decide_false]
      exact .nil

theorem Event.forall₂_posts {m : Metadata} {e : Event} {entries : List Entry}
    (h : e.PlacedAt m) (henc : entries = [] ∨ m.id.encode = .ok id)
    (hentries : e.rowEntries natives = .ok entries) :
    List.Forall₂ Posts (e.changes natives coinKeptBelow m.height)
      ((entries.map (Entry.rowAt id m.timestamp)).flatMap (Row.postings natives coinKeptBelow)) := by
  cases e with
  | add e =>
    cases hentries
    exact posts_twoSided _ _ _
  | addLiquidity e =>
    cases hentries
    exact posts_twoSided _ _ _
  | errata e =>
    cases hentries
    exact posts_twoSided _ _ _
  | balanceChange e =>
    cases hentries
    exact posts_twoSided _ _ _
  | gas e =>
    cases hentries
    exact .cons (posts_outflow _ _ _) (.cons (posts_inflow _ _ _) .nil)
  | refund e =>
    cases hentries
    exact .nil
  | withdraw e =>
    cases hentries
    simp only [List.map_cons, List.map_nil, List.flatMap_cons, List.flatMap_nil, List.append_nil]
    rcases henc with hnil | henc
    · cases hnil
    · exact Withdraw.posts (by rw [eventHeight_rowAt henc (h.index e rfl) rfl, h.height])
  | swap e =>
    unfold Event.rowEntries at hentries
    cases hdirection : SwapDirection.of? natives e with
    | none =>
      simp only [hdirection] at hentries
      cases hentries
    | some direction =>
      simp only [hdirection] at hentries
      cases hentries
      simp only [List.map_cons, List.map_nil, List.flatMap_cons, List.flatMap_nil, List.append_nil]
      exact Swap.posts hdirection
  | fee e =>
    cases hentries
    show List.Forall₂ Posts (if natives.contains e.coin.asset then _ else _)
      ((if natives.contains e.coin.asset then _ else _) ++ [])
    split
    · exact .nil
    · exact .cons (posts_inflow _ _ _) (.cons (posts_outflow _ _ _) .nil)
  | pool e =>
    cases hentries
    show List.Forall₂ Posts (if e.isSuspended then _ else _) ((if e.isSuspended then _ else _) ++ [])
    split
    · exact .cons (posts_reset _ _) .nil
    · exact .nil
  | rewards e =>
    cases hentries
    have hentry : ∀ share, (Entry.rowAt id m.timestamp
        ⟨"rewards_event_entries", Rewards.entryCells share⟩).postings natives coinKeptBelow =
          [.add .rune share.1 share.2.toInt] := fun _ => rfl
    exact posts_map (fun share => posts_inflow .rune share.1 share.2) hentry e.perPool
  | slash e =>
    cases hentries
    exact posts_map (fun _ => posts_inflow _ _ _) (fun _ => rfl) e.amounts
  | depthOverride e =>
    cases hentries
    exact .cons (posts_reset _ _) .nil
  | _ =>
    cases hentries
    exact .nil

end

/-- An event whose rows are taken posts what its rows say. -/
theorem Event.totals_applyAll {m : Metadata} {e : Event} {rows : List Row} {t : Totals}
    (h : e.PlacedAt m) (hrows : e.rows natives m = .ok rows)
    (hfault : (t.applyAll (e.changes natives coinKeptBelow m.height)).fault = none) :
    (t.applyAll (e.changes natives coinKeptBelow m.height)).totals =
      t.postAll (rows.flatMap (Row.postings natives coinKeptBelow)) := by
  obtain ⟨entries, id, hentries, rfl, henc⟩ := Event.rows_eq_ok hrows
  exact t.totals_applyAll (Event.forall₂_posts h henc hentries) hfault

/-- An event whose rows are taken moves the balances as its rows do. -/
theorem Event.balances_applyAll {m : Metadata} {e : Event} {rows : List Row} {t : Totals}
    (h : e.PlacedAt m) (hrows : e.rows natives m = .ok rows)
    (hfault : (t.applyAll (e.changes natives coinKeptBelow m.height)).fault = none) :
    (t.applyAll (e.changes natives coinKeptBelow m.height)).totals.balances =
      t.balances.postAll (rows.flatMap (Row.postings natives coinKeptBelow)) := by
  rw [Event.totals_applyAll h hrows hfault, Totals.balances_postAll]

end

end PoolIndexer
