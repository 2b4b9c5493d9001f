import PoolIndexer.Metrics
import PoolIndexer.Refresh.Signal
import PoolIndexer.Store.Memory

/-!
# Refresh.Refresher — the views follow the chain in bounded cycles

A cycle re-aggregates every view from where the last one ended up to a target, but over one window
of chain time at most.  A cycle that the window cuts short is a bulk cycle and is followed by
another one.  A new refresher begins at the oldest watermark, or at the first block if some view has
none.
-/

namespace PoolIndexer

inductive RefreshMode where
  /-- The gap is larger than one window. -/
  | bulk
  /-- The gap fits into one window. -/
  | incremental
  deriving DecidableEq

def RefreshMode.name : RefreshMode → String
  | .bulk => "bulk"
  | .incremental => "incremental"

structure RefreshOutcome where
  mode : RefreshMode
  /-- How many views were written. -/
  viewsRefreshed : Nat
  lastAggregated : Int64
  caughtUp : Bool
  deriving DecidableEq

structure Refresher where
  /-- The most chain time that one cycle covers. -/
  maxWindow : Int64
  /-- The end of the last cycle. -/
  lastAggregated : Option Int64
  /-- Called when the views have caught up. -/
  caughtUp : Signal
  /-- How many cycles of each mode have gone through. -/
  cycles : Labelled
  one_le_maxWindow : 1 ≤ maxWindow.toInt

namespace Refresher

/-- A window of less than one nanosecond counts as one. -/
def ofWindow (window : Int64) : Refresher :=
  if h : 1 ≤ window.toInt then ⟨window, none, .fresh, ⟨[]⟩, h⟩
  else ⟨1, none, .fresh, ⟨[]⟩, by decide⟩

/-! ### The range of a cycle -/

/-- The oldest watermark, or the first block if some view has none. -/
def startPoint (s : Store) : Option Int64 :=
  match View.all.mapM s.watermark? with
  | none => s.earliestBlock?
  | some [] => none
  | some (w :: ws) => some (ws.foldl Checked.smaller w)

/-- `start + window`, or the latest time there is. -/
def windowEnd (start window : Int64) : Int64 :=
  match Checked.fit? (start.toInt + window.toInt) with
  | some stop => stop
  | none => Int64.maxValue

def windowStop (start target window : Int64) : Int64 :=
  Checked.smaller target (windowEnd start window)

def modeOf (gap window : Int64) : RefreshMode :=
  if window.toInt < gap.toInt then .bulk else .incremental

/-! ### One cycle -/

/-- Re-aggregates one view from the bucket that `start` lies in. -/
def refreshView (start stop : Int64) (s : Store) (v : View) : Except (Stop StoreError) Store :=
  match v.bucket.floor start, v.bucket.floor stop with
  | .error o, _ | .ok _, .error o => .error (.overflow o)
  | .ok low, .ok mark => (s.refreshView ⟨v, low, stop, mark⟩).mapError .error

/-- Re-aggregates views in order up to the first failure. -/
def refreshViews (start stop : Int64) : Store → List View → Except (Stop StoreError) Unit × Store
  | s, [] => (.ok (), s)
  | s, v :: rest =>
    match refreshView start stop s v with
    | .ok s => refreshViews start stop s rest
    | .error e => (.error e, s)

/-- A cycle that had nothing to do. -/
def idleOutcome (last : Int64) : RefreshOutcome := ⟨.incremental, 0, last, true⟩

/-- Notes that a cycle has gone through. -/
def advance (r : Refresher) (mode : RefreshMode) (stop : Int64) : Refresher :=
  { r with lastAggregated := some stop, cycles := r.cycles.add mode.name 1 }

/-- The cycle that begins at `start`. -/
def cycleFrom (r : Refresher) (s : Store) (start target : Int64) :
    Except (Stop StoreError) RefreshOutcome × Refresher × Store :=
  if target.toInt ≤ start.toInt then (.ok (idleOutcome start), r, s)
  else
    match Checked.sub target start with
    | .error o => (.error (.overflow o), r, s)
    | .ok gap =>
      let mode := modeOf gap r.maxWindow
      let stop := windowStop start target r.maxWindow
      match refreshViews start stop s View.all with
      | (.error e, s) => (.error e, r, s)
      | (.ok _, s) =>
        (.ok ⟨mode, View.all.length, stop, decide (target.toInt ≤ stop.toInt)⟩,
          r.advance mode stop, s)

/-- One cycle towards `target`. -/
def refreshOnce (r : Refresher) (s : Store) (target : Int64) :
    Except (Stop StoreError) RefreshOutcome × Refresher × Store :=
  match r.lastAggregated with
  | some start => r.cycleFrom s start target
  | none =>
    match startPoint s with
    | none => (.ok (idleOutcome target), r, s)
    | some start => { r with lastAggregated := some start }.cycleFrom s start target

/-! ### Cycles until the views have caught up -/

/-- How far the end of the last cycle is behind `target`. -/
def gap (r : Refresher) (target : Int64) : Nat :=
  (target.toInt - ((r.lastAggregated.map Int64.toInt).getD Int64.minValue.toInt)).toNat

theorem start_lt_windowStop {start target window : Int64} (h : start.toInt < target.toInt)
    (hw : 1 ≤ window.toInt) : start.toInt < (windowStop start target window).toInt := by
  unfold windowStop Checked.smaller
  split
  · unfold windowEnd
    split
    · rename_i stop hstop
      rw [Checked.fit?_eq_some_iff.1 hstop]
      omega
    · have := Int64.toInt_lt target
      have : Int64.maxValue.toInt = 2 ^ 63 - 1 := by decide
      omega
  · exact h

theorem gap_cycleFrom {r : Refresher} {s : Store} {start target : Int64} {o : RefreshOutcome}
    (hlast : r.lastAggregated = some start) (h : (r.cycleFrom s start target).1 = .ok o)
    (hbehind : o.caughtUp = false) :
    (r.cycleFrom s start target).2.1.gap target < r.gap target := by
  unfold cycleFrom at h ⊢
  by_cases hlt : target.toInt ≤ start.toInt
  · rw [if_pos hlt] at h
    cases h
    cases hbehind
  · rw [if_neg hlt] at h ⊢
    cases hsub : Checked.sub target start with
    | error f =>
      rw [hsub] at h
      cases h
    | ok width =>
      rw [hsub] at h
      dsimp only at h ⊢
      generalize refreshViews start (windowStop start target r.maxWindow) s View.all = views at h ⊢
      match views with
      | (.error e, _) => cases h
      | (.ok _, _) =>
        have := start_lt_windowStop (Int.not_le.1 hlt) r.one_le_maxWindow
        simp only [gap, advance, hlast, Option.map_some, Option.getD_some]
        omega

theorem gap_refreshOnce {r : Refresher} {s : Store} {target : Int64} {o : RefreshOutcome}
    (h : (r.refreshOnce s target).1 = .ok o) (hbehind : o.caughtUp = false) :
    (r.refreshOnce s target).2.1.gap target < r.gap target := by
  unfold refreshOnce at h ⊢
  match hlast : r.lastAggregated with
  | some start =>
    rw [hlast] at h
    exact gap_cycleFrom hlast h hbehind
  | none =>
    rw [hlast] at h
    dsimp only at h ⊢
    match hstart : startPoint s with
    | none =>
      rw [hstart] at h
      cases h
      cases hbehind
    | some start =>
      rw [hstart] at h
      refine Nat.lt_of_lt_of_le (gap_cycleFrom rfl h hbehind) ?_
      have := Int64.minValue_le_toInt start
      simp only [gap, hlast, Option.map_some, Option.getD_some, Option.map_none, Option.getD_none]
      omega

/-- Repeats cycles until the views have caught up; a cancelled run stops after one cycle.  Calls the
caught-up signal if any cycle had work to do. -/
def convergeAfter (worked : Bool) (r : Refresher) (s : Store) (target : Int64)
    (cancelled : Bool) : Except (Stop StoreError) Bool × Refresher × Store :=
  match _h : r.refreshOnce s target with
  | (.error e, r, s) => (.error e, r, s)
  | (.ok o, r', s') =>
    let worked := worked || 0 < o.viewsRefreshed
    if _hc : o.caughtUp then
      (.ok true, if worked then { r' with caughtUp := r'.caughtUp.fire.2 } else r', s')
    else if cancelled then (.ok false, r', s')
    else convergeAfter worked r' s' target cancelled
termination_by r.gap target
decreasing_by
  have := @gap_refreshOnce r s target o (by rw [_h])
    (by simpa using _hc)
  rw [_h] at this
  exact this

def converge (r : Refresher) (s : Store) (target : Int64) (cancelled : Bool) :
    Except (Stop StoreError) Bool × Refresher × Store :=
  r.convergeAfter false s target cancelled

/-- The views should cover everything up to the block at `timestamp`. -/
def targetOf (timestamp : Int64) : Int64 := windowEnd timestamp 1

end Refresher

end PoolIndexer
