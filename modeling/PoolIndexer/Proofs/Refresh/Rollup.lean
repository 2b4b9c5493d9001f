import PoolIndexer.Refresh.Refresher

/-!
# Proofs.Refresh.Rollup — one store and the refreshers that work on it

* `Cycle`: what is left of a cycle; `Worker.begin` starts one and `Worker.work` writes one more view.
* `RollupAction`: another refresher, a cycle in one go or view by view, and at any moment new rows and a
  change of everything about the store but its watermarks.  Several refreshers may be in a cycle at once.
* `step_refresh_eq_run`: a cycle that nobody disturbs goes as its views do.
-/

namespace PoolIndexer

/-! ### A cycle view by view -/

/-- A cycle on its way. -/
structure Cycle where
  start : Int64
  stop : Int64
  mode : RefreshMode
  /-- The views that are still to be written. -/
  rest : List View

/-- A refresher, and the cycle that it is in. -/
structure Worker where
  refresher : Refresher
  cycle : Option Cycle

/-- The refresher after its cycle has ended. -/
def Refresher.closed (r : Refresher) (mode : RefreshMode) (stop : Int64) :
    Except (Stop StoreError) Unit → Refresher
  | .ok _ => r.advance mode stop
  | .error _ => r

namespace Worker

def beginFrom (r : Refresher) (start target : Int64) : Worker :=
  if target.toInt ≤ start.toInt then ⟨r, none⟩
  else
    match Checked.sub target start with
    | .error _ => ⟨r, none⟩
    | .ok gap =>
      ⟨r, some ⟨start, Refresher.windowStop start target r.maxWindow, Refresher.modeOf gap r.maxWindow,
        View.all⟩⟩

/-- A refresher that sets out for `target`. -/
def begin (r : Refresher) (s : Store) (target : Int64) : Worker :=
  match r.lastAggregated with
  | some start => beginFrom r start target
  | none =>
    match Refresher.startPoint s with
    | none => ⟨r, none⟩
    | some start => beginFrom { r with lastAggregated := some start } start target

/-- Writes the next view of the cycle; a failure ends the cycle. -/
def work (k : Worker) (s : Store) : Worker × Store :=
  match k.cycle with
  | none => (k, s)
  | some c =>
    match c.rest with
    | [] => (⟨k.refresher.advance c.mode c.stop, none⟩, s)
    | v :: rest =>
      match Refresher.refreshView c.start c.stop s v with
      | .ok s => (⟨k.refresher, some { c with rest }⟩, s)
      | .error _ => (⟨k.refresher, none⟩, s)

end Worker

/-! ### Actions -/

structure Rollup where
  store : Store
  workers : List Worker
  /-- The targets that were asked for. -/
  targets : List Int64
  /-- The time of the first block, as a refresh first found it. -/
  origin : Option Int64

inductive RollupAction where
  /-- A refresher with that window joins in. -/
  | create (window : Int64)
  /-- The rows of `s` are added, and all else about the store but its watermarks becomes that of `s`. -/
  | disturb (s : Store)
  /-- A whole cycle of the `i`-th refresher. -/
  | refresh (i : Nat) (target : Int64)
  | begin (i : Nat) (target : Int64)
  | work (i : Nat)

namespace Rollup

/-- A store without watermarks that nobody works on. -/
def start (s : Store) : Rollup := ⟨{ s with watermarks := [], refreshes := [] }, [], [], none⟩

def ask (w : Rollup) (target : Int64) : Rollup :=
  { w with targets := target :: w.targets, origin := w.origin.or w.store.earliestBlock? }

/-- The `i`-th refresher and the store after something it did. -/
def put (w : Rollup) (i : Nat) (p : Worker × Store) : Rollup :=
  { w with store := p.2, workers := w.workers.set i p.1 }

def disturbed (w : Rollup) (s : Store) : Rollup :=
  { w with store :=
    { s with
      rows := w.store.rows ++ s.rows
      watermarks := w.store.watermarks
      refreshes := w.store.refreshes } }

/-- A refresher in the middle of a cycle does not hear of another target. -/
def refresh (w : Rollup) (i : Nat) (target : Int64) : Rollup :=
  match w.workers[i]? with
  | some ⟨r, none⟩ =>
    let (_, r, s) := r.refreshOnce w.store target
    (w.ask target).put i (⟨r, none⟩, s)
  | _ => w

def begin (w : Rollup) (i : Nat) (target : Int64) : Rollup :=
  match w.workers[i]? with
  | some ⟨r, none⟩ => (w.ask target).put i (Worker.begin r w.store target, w.store)
  | _ => w

def work (w : Rollup) (i : Nat) : Rollup :=
  match w.workers[i]? with
  | some k => w.put i (k.work w.store)
  | none => w

def step (w : Rollup) : RollupAction → Rollup
  | .create window => { w with workers := w.workers ++ [⟨.ofWindow window, none⟩] }
  | .disturb s => w.disturbed s
  | .refresh i target => w.refresh i target
  | .begin i target => w.begin i target
  | .work i => w.work i

def run (w : Rollup) (actions : List RollupAction) : Rollup := actions.foldl step w

/-! ### The views of an undisturbed cycle -/

theorem getElem?_put {w : Rollup} {i : Nat} {k : Worker} (hi : w.workers[i]? = some k) (p : Worker × Store) :
    (w.put i p).workers[i]? = some p.1 := by
  have hlt : i < w.workers.length := (List.getElem?_eq_some_iff.1 hi).1
  exact List.getElem?_set_self hlt

theorem put_put (w : Rollup) (i : Nat) (p q : Worker × Store) : (w.put i p).put i q = w.put i q := by
  unfold put
  simp only [List.set_set]

theorem put_self {w : Rollup} {i : Nat} {k : Worker} (hi : w.workers[i]? = some k) :
    w.put i (k, w.store) = w := by
  obtain ⟨hlt, hk⟩ := List.getElem?_eq_some_iff.1 hi
  unfold put
  rw [← hk, List.set_getElem_self]

theorem work_eq {w : Rollup} {i : Nat} {k : Worker} (hi : w.workers[i]? = some k) :
    w.work i = w.put i (k.work w.store) := by
  unfold work
  rw [hi]

/-- A refresher that is in no cycle has nothing to work on. -/
theorem run_work_idle {w : Rollup} {i : Nat} {r : Refresher} (hi : w.workers[i]? = some ⟨r, none⟩) (n : Nat) :
    w.run (List.replicate n (.work i)) = w := by
  induction n with
  | zero => rfl
  | succ n ih =>
    have hwork : w.work i = w := (work_eq hi).trans (put_self hi)
    rw [List.replicate_succ]
    show (w.work i).run _ = w
    rw [hwork, ih]

/-- The rest of a cycle: one piece of work for each view, and one more to close it. -/
theorem run_work_cycle (i : Nat) (r : Refresher) (start stop : Int64) (mode : RefreshMode) (rest : List View) :
    ∀ (w : Rollup), w.workers[i]? = some ⟨r, some ⟨start, stop, mode, rest⟩⟩ →
      w.run (List.replicate (rest.length + 1) (.work i)) =
        let views := Refresher.refreshViews start stop w.store rest
        w.put i (⟨r.closed mode stop views.1, none⟩, views.2) := by
  induction rest with
  | nil => exact fun w hi => work_eq hi
  | cons v rest ih =>
    intro w hi
    show (w.work i).run _ = _
    rw [work_eq hi]
    unfold Worker.work Refresher.refreshViews
    dsimp only
    cases Refresher.refreshView start stop w.store v with
    | ok s =>
      have hrest := ih (w.put i (⟨r, some ⟨start, stop, mode, rest⟩⟩, s)) (getElem?_put hi _)
      exact hrest.trans (put_put w i _ _)
    | error e => exact run_work_idle (getElem?_put hi _) _

theorem run_work_beginFrom {w : Rollup} {i : Nat} {k : Worker} (hi : w.workers[i]? = some k) (r : Refresher)
    (start target : Int64) :
    (w.put i (Worker.beginFrom r start target, w.store)).run
        (List.replicate (View.all.length + 1) (.work i)) =
      let cycle := r.cycleFrom w.store start target
      w.put i (⟨cycle.2.1, none⟩, cycle.2.2) := by
  unfold Worker.beginFrom Refresher.cycleFrom
  split
  · exact run_work_idle (getElem?_put hi _) _
  · cases Checked.sub target start with
    | error o => exact run_work_idle (getElem?_put hi _) _
    | ok gap =>
      refine (run_work_cycle i r start _ _ View.all _ (getElem?_put hi _)).trans ?_
      refine (put_put w i _ _).trans ?_
      show w.put i (⟨r.closed _ _ (Refresher.refreshViews _ _ w.store _).1, none⟩,
        (Refresher.refreshViews _ _ w.store _).2) = _
      dsimp only
      cases Refresher.refreshViews start (Refresher.windowStop start target r.maxWindow) w.store View.all with
      | mk result s =>
        cases result with
        | ok _ => rfl
        | error _ => rfl

/-- **Views**: a cycle that nobody disturbs is its views one after another. -/
theorem refresh_eq_run {w : Rollup} {i : Nat} {r : Refresher} (hi : w.workers[i]? = some ⟨r, none⟩)
    (target : Int64) :
    w.refresh i target = (w.begin i target).run (List.replicate (View.all.length + 1) (.work i)) := by
  have hi' : (w.ask target).workers[i]? = some ⟨r, none⟩ := hi
  unfold refresh begin
  rw [hi]
  dsimp only
  unfold Worker.begin Refresher.refreshOnce
  cases r.lastAggregated with
  | some start => exact (run_work_beginFrom hi' r start target).symm
  | none =>
    cases Refresher.startPoint w.store with
    | none => exact (run_work_idle (getElem?_put hi' _) _).symm
    | some start => exact (run_work_beginFrom hi' { r with lastAggregated := some start } start target).symm

end Rollup

end PoolIndexer
