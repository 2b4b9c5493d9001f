import Mathlib.Algebra.Order.Floor.Div
import PoolIndexer.Proofs.Refresh.Coverage

/-!
# Proofs.Refresh.Convergence — how many cycles it takes to catch up

* `Refresher.BeginsAt`: where a refresher sets out, where its last cycle ended or where the store tells it to.
* `Refresher.Cycles`: the cycles up to the first one that has caught up, each with the refresher after it.
* `Refresher.refreshOnce_behind`: on a store that does not fail, a cycle that is behind goes on by one window
  or up to the target.
* `Refresher.converge_inCycles`: as many cycles as there are windows in the gap, begun ones counted.
-/

namespace PoolIndexer

/-! ### Where a refresher begins -/

/-- The times of the blocks of the ledger. -/
def Store.blockTimes (s : Store) : List Int64 :=
  (s.rowsOf "block_log").filterMap fun r => (r.get? "timestamp").bind Value.int64?

namespace Refresher

/-- Where the last cycle ended; else the oldest watermark; else, if some view has none, the first block. -/
inductive BeginsAt (r : Refresher) (s : Store) (start : Int64) : Prop
  | resumed (h : r.lastAggregated = some start)
  | marked (hnew : r.lastAggregated = none) (hmark : ∃ v, s.watermark? v = some start)
      (holdest : ∀ v, ∃ w, s.watermark? v = some w ∧ start.toInt ≤ w.toInt)
  | firstBlock (hnew : r.lastAggregated = none) (hunmarked : ∃ v, s.watermark? v = none)
      (hblock : start ∈ s.blockTimes) (hearliest : ∀ t ∈ s.blockTimes, start.toInt ≤ t.toInt)

theorem foldl_smaller_mem (t : Int64) (ts : List Int64) : ts.foldl Checked.smaller t ∈ t :: ts := by
  induction ts generalizing t with
  | nil => exact List.mem_singleton_self t
  | cons t' ts ih =>
    rw [List.foldl_cons]
    have hsmaller : Checked.smaller t t' = t ∨ Checked.smaller t t' = t' := by
      unfold Checked.smaller
      split <;> simp
    rcases List.mem_cons.1 (ih (Checked.smaller t t')) with hfirst | hrest
    · rw [hfirst]
      rcases hsmaller with h | h <;> simp [h]
    · exact List.mem_cons_of_mem _ (List.mem_cons_of_mem _ hrest)

/-- The fold over a list is its least member. -/
theorem foldl_smaller_eq {t start : Int64} {ts : List Int64} (hmem : start ∈ t :: ts)
    (hleast : ∀ u ∈ t :: ts, start.toInt ≤ u.toInt) : ts.foldl Checked.smaller t = start :=
  Int64.toInt_inj.1 (Int.le_antisymm (Store.foldl_smaller_le t ts start hmem)
    (hleast _ (foldl_smaller_mem t ts)))

theorem BeginsAt.startPoint {r : Refresher} {s : Store} {start : Int64} (h : r.BeginsAt s start) :
    r.lastAggregated = some start ∨ r.lastAggregated = none ∧ Refresher.startPoint s = some start := by
  cases h with
  | resumed h => exact .inl h
  | marked hnew hmark holdest =>
    refine .inr ⟨hnew, ?_⟩
    unfold Refresher.startPoint
    cases hmarks : View.all.mapM s.watermark? with
    | none =>
      obtain ⟨v, -, hv⟩ := exists_of_mapM_eq_none hmarks
      obtain ⟨w, hw, -⟩ := holdest v
      cases hv.symm.trans hw
    | some ws =>
      obtain ⟨hviews, hresults⟩ := results_of_mapM hmarks
      obtain ⟨v, hv⟩ := hmark
      obtain ⟨w, hmem, hw⟩ := hviews v v.mem_all
      obtain rfl : start = w := Option.some.inj (hv.symm.trans hw)
      cases ws with
      | nil => cases hmem
      | cons w ws =>
        refine congrArg some (foldl_smaller_eq hmem fun u hu => ?_)
        obtain ⟨v', -, hv'⟩ := hresults u hu
        obtain ⟨w', hw', hle⟩ := holdest v'
        obtain rfl : u = w' := Option.some.inj (hv'.symm.trans hw')
        exact hle
  | firstBlock hnew hunmarked hblock hearliest =>
    refine .inr ⟨hnew, ?_⟩
    unfold Refresher.startPoint
    cases hmarks : View.all.mapM s.watermark? with
    | some ws =>
      obtain ⟨v, hv⟩ := hunmarked
      obtain ⟨w, -, hw⟩ := (results_of_mapM hmarks).1 v v.mem_all
      cases hv.symm.trans hw
    | none =>
      show s.earliestBlock? = some start
      unfold Store.earliestBlock?
      unfold Store.blockTimes at hblock hearliest
      split
      · rename_i htimes
        rw [htimes] at hblock
        cases hblock
      · rename_i t ts htimes
        rw [htimes] at hblock hearliest
        exact congrArg some (foldl_smaller_eq hblock hearliest)

/-! ### Cycles in a row -/

/-- The cycles towards `target` up to the first one that has caught up, each with the refresher after it. -/
inductive Cycles (target : Int64) :
    Refresher → Store → List (RefreshOutcome × Refresher) → Refresher → Store → Prop
  | last {r r' : Refresher} {s s' : Store} {o : RefreshOutcome}
      (h : r.refreshOnce s target = (.ok o, r', s')) (hdone : o.caughtUp = true) :
      Cycles target r s [(o, r')] r' s'
  | more {r r' final : Refresher} {s s' stop : Store} {o : RefreshOutcome}
      {rest : List (RefreshOutcome × Refresher)}
      (h : r.refreshOnce s target = (.ok o, r', s')) (hbehind : o.caughtUp = false)
      (hrest : Cycles target r' s' rest final stop) :
      Cycles target r s ((o, r') :: rest) final stop

/-- Cycles in a row are what `converge` goes through; it calls if any of them had work to do. -/
theorem Cycles.converge {target : Int64} {r final : Refresher} {s stop : Store}
    {cycles : List (RefreshOutcome × Refresher)} (h : Cycles target r s cycles final stop) (worked : Bool) :
    r.convergeAfter worked s target false =
      (.ok true,
        if worked || cycles.any (fun c => 0 < c.1.viewsRefreshed) then
          { final with caughtUp := final.caughtUp.fire.2 }
        else final, stop) := by
  induction h generalizing worked with
  | last h hdone =>
    rw [convergeAfter]
    split
    · rename_i hfail
      cases hfail.symm.trans h
    · rename_i hok
      cases hok.symm.trans h
      rw [dif_pos hdone]
      simp
  | more h hbehind _ ih =>
    rw [convergeAfter]
    split
    · rename_i hfail
      cases hfail.symm.trans h
    · rename_i hok
      cases hok.symm.trans h
      rw [dif_neg (by simp [hbehind]), if_neg Bool.false_ne_true, ih, List.any_cons, ← Bool.or_assoc]

/-! ### One cycle on a store that does not fail -/

theorem floor_isOk (b : Bucket) {t : Int64} (ht : 0 ≤ t.toInt) : ∃ f, b.floor t = .ok f := by
  have hstart : b.start 0 ≤ b.start t.toInt := b.start_mono ht
  have hzero : b.start 0 = 0 := by simp [Bucket.start]
  have hupper := b.start_le t.toInt
  have hword := Int64.toInt_lt t
  exact ⟨Int64.ofInt (b.start t.toInt),
    Bucket.floor_eq_ok_iff.2 (Int64.toInt_ofInt_of_le (by omega) (by omega))⟩

theorem refreshViews_of_calm {start stop : Int64} (hstart : 0 ≤ start.toInt) (hstop : 0 ≤ stop.toInt)
    (views : List View) {s : Store} (hs : s.outage = false) :
    ∃ s', refreshViews start stop s views = (.ok (), s') ∧ s'.outage = false := by
  induction views generalizing s with
  | nil => exact ⟨s, rfl, hs⟩
  | cons v rest ih =>
    obtain ⟨low, hlow⟩ := floor_isOk v.bucket hstart
    obtain ⟨mark, hmark⟩ := floor_isOk v.bucket hstop
    have hview : ∃ s', refreshView start stop s v = .ok s' ∧ s'.outage = false := by
      unfold refreshView Store.refreshView
      rw [hlow, hmark, hs]
      exact ⟨_, rfl, rfl⟩
    obtain ⟨s₁, hview, hs₁⟩ := hview
    obtain ⟨s', hrest, hs'⟩ := ih hs₁
    refine ⟨s', ?_, hs'⟩
    rw [refreshViews, hview]
    exact hrest

theorem toInt_windowStop (start target : Int64) {window : Int64} (hwindow : 0 ≤ window.toInt) :
    (windowStop start target window).toInt = min target.toInt (start.toInt + window.toInt) := by
  have htarget := Int64.toInt_lt target
  unfold windowStop
  rw [Checked.toInt_smaller, toInt_windowEnd hwindow]
  omega

theorem cycleFrom_behind (r : Refresher) {s : Store} {start target : Int64} (hs : s.outage = false)
    (hstart : 0 ≤ start.toInt) (hbehind : start.toInt < target.toInt) :
    ∃ mode stop s', r.cycleFrom s start target =
        (.ok ⟨mode, View.all.length, stop, decide (target.toInt ≤ stop.toInt)⟩, r.advance mode stop, s') ∧
      s'.outage = false ∧
      mode = (if start.toInt + r.maxWindow.toInt < target.toInt then .bulk else .incremental) ∧
      stop.toInt = min target.toInt (start.toInt + r.maxWindow.toInt) := by
  have hword := Int64.toInt_lt target
  have hwindow := r.one_le_maxWindow
  obtain ⟨gap, hgap, hgap'⟩ := Checked.exists_fit .subtract
    (show -2 ^ 63 ≤ target.toInt - start.toInt by omega) (by omega)
  have hstop := toInt_windowStop start target (Int.le_of_lt hwindow)
  have hnonneg : 0 ≤ (windowStop start target r.maxWindow).toInt := by omega
  obtain ⟨s', hviews, hs'⟩ := refreshViews_of_calm hstart hnonneg View.all hs
  have hlarger : r.maxWindow.toInt < gap.toInt ↔ start.toInt + r.maxWindow.toInt < target.toInt := by omega
  refine ⟨modeOf gap r.maxWindow, windowStop start target r.maxWindow, s', ?_, hs', ?_, hstop⟩
  · unfold cycleFrom Checked.sub
    rw [if_neg (by omega), hgap]
    dsimp only
    rw [hviews]
  · unfold modeOf
    simp only [hlarger]

/-- **One cycle** that is behind: it writes all views and goes on by one window, or up to the target. -/
theorem refreshOnce_behind {r : Refresher} {s : Store} {start target : Int64}
    (hlast : r.lastAggregated = some start ∨ r.lastAggregated = none ∧ startPoint s = some start)
    (hs : s.outage = false) (hstart : 0 ≤ start.toInt) (hbehind : start.toInt < target.toInt) :
    ∃ mode stop s', r.refreshOnce s target =
        (.ok ⟨mode, View.all.length, stop, decide (target.toInt ≤ stop.toInt)⟩, r.advance mode stop, s') ∧
      s'.outage = false ∧
      mode = (if start.toInt + r.maxWindow.toInt < target.toInt then .bulk else .incremental) ∧
      stop.toInt = min target.toInt (start.toInt + r.maxWindow.toInt) := by
  unfold refreshOnce
  rcases hlast with hlast | ⟨hlast, hpoint⟩
  · rw [hlast]
    exact r.cycleFrom_behind hs hstart hbehind
  · rw [hlast, hpoint]
    exact cycleFrom_behind { r with lastAggregated := some start } hs hstart hbehind

/-! ### From the start to the target -/

/-- Cycles that go from `start` to `target` with a window that wide. -/
structure Spans (width : Int) (start target : Int64) (cycles : List (RefreshOutcome × Refresher)) : Prop where
  length : cycles.length = (target.toInt - start.toInt).toNat ⌈/⌉ width.toNat
  working : ∀ c ∈ cycles, c.1.viewsRefreshed = View.all.length
  modes : cycles.map (fun c => c.1.mode) = List.replicate (cycles.length - 1) .bulk ++ [.incremental]
  /-- Each cycle ends later than it began, by one window at most. -/
  ends : ∃ ends : List Int64, cycles.map (fun c => c.2.lastAggregated) = ends.map some ∧
    (start :: ends).IsChain fun a b => a.toInt + 1 ≤ b.toInt ∧ b.toInt ≤ a.toInt + width

theorem ceilDiv_of_le {gap width : Nat} (hpos : 0 < gap) (hle : gap ≤ width) : gap ⌈/⌉ width = 1 := by
  rw [Nat.ceilDiv_eq_add_pred_div]
  exact Nat.div_eq_of_lt_le (by omega) (by omega)

theorem ceilDiv_of_lt {gap width : Nat} (hpos : 0 < width) (hlt : width < gap) :
    gap ⌈/⌉ width = (gap - width) ⌈/⌉ width + 1 := by
  rw [Nat.ceilDiv_eq_add_pred_div, Nat.ceilDiv_eq_add_pred_div, ← Nat.add_div_right _ hpos]
  congr 1
  omega

/-- **All cycles** of a refresher that is behind, by induction on the gap. -/
theorem cycles_of_behind (target : Int64) (gap : Nat) :
    ∀ (r : Refresher) (s : Store) (start : Int64),
      (r.lastAggregated = some start ∨ r.lastAggregated = none ∧ startPoint s = some start) →
      s.outage = false → 0 ≤ start.toInt → start.toInt < target.toInt → (target.toInt - start.toInt).toNat = gap →
      ∃ cycles final stop, Cycles target r s cycles final stop ∧ Spans r.maxWindow.toInt start target cycles ∧
        final.lastAggregated = some target ∧ final.caughtUp = r.caughtUp := by
  induction gap using Nat.strong_induction_on with
  | _ gap ih =>
    intro r s start hlast hs hstart hbehind hgap
    have hwindow := r.one_le_maxWindow
    obtain ⟨mode, stop, s', hcycle, hs', hmode, hstop⟩ := refreshOnce_behind hlast hs hstart hbehind
    by_cases hbulk : start.toInt + r.maxWindow.toInt < target.toInt
    · obtain ⟨rest, final, stop', hrest, hspans, hfinal, hsignal⟩ := ih (target.toInt - stop.toInt).toNat (by omega)
        (r.advance mode stop) s' stop (.inl rfl) hs' (by omega) (by omega) rfl
      have hspans : Spans r.maxWindow.toInt stop target rest := hspans
      obtain ⟨hlength, hworking, hmodes, ends, hends, hchain⟩ := hspans
      refine ⟨_, final, stop', .more hcycle (decide_eq_false (by omega)) hrest, ⟨?_, ?_, ?_, ?_⟩, hfinal, hsignal⟩
      · have hleft : (target.toInt - stop.toInt).toNat =
            (target.toInt - start.toInt).toNat - r.maxWindow.toInt.toNat := by omega
        rw [List.length_cons, hlength, hleft]
        exact (ceilDiv_of_lt (by omega) (by omega)).symm
      · exact List.forall_mem_cons.2 ⟨rfl, hworking⟩
      · rw [List.map_cons, hmodes, hmode, if_pos hbulk]
        cases rest with
        | nil => cases hmodes
        | cons c rest => rfl
      · exact ⟨stop :: ends, congrArg (some stop :: ·) hends, .cons_cons ⟨by omega, by omega⟩ hchain⟩
    · obtain rfl : stop = target := Int64.toInt_inj.1 (by omega)
      refine ⟨_, _, s', .last hcycle (decide_eq_true (Int.le_refl _)), ⟨?_, ?_, ?_, ?_⟩, rfl, rfl⟩
      · rw [ceilDiv_of_le (by omega) (by omega)]
        rfl
      · exact List.forall_mem_singleton.2 rfl
      · rw [hmode, if_neg hbulk]
        rfl
      · exact ⟨[stop], rfl, .cons_cons ⟨by omega, by omega⟩ (.singleton _)⟩

theorem maxWindow_ofWindow (window : Int64) : (ofWindow window).maxWindow.toInt = max window.toInt 1 := by
  unfold ofWindow
  split
  · dsimp only
    omega
  · show (1 : Int64).toInt = _
    rw [Int64.toInt_one]
    omega

/-- A refresher that is not behind has one cycle without work. -/
theorem cycles_of_not_behind {r : Refresher} {s : Store} {start target : Int64}
    (hlast : r.lastAggregated = some start ∨ r.lastAggregated = none ∧ startPoint s = some start)
    (hdone : target.toInt ≤ start.toInt) :
    Cycles target r s [(idleOutcome start, { r with lastAggregated := some start })]
      { r with lastAggregated := some start } s := by
  refine .last ?_ rfl
  unfold refreshOnce
  rcases hlast with hlast | ⟨hlast, hpoint⟩
  · rw [hlast]
    dsimp only
    unfold cycleFrom
    rw [if_pos hdone, ← hlast]
  · rw [hlast, hpoint]
    dsimp only
    unfold cycleFrom
    rw [if_pos hdone]

/-- **Convergence**: on a store that does not fail, a refresher catches up in as many cycles as there are windows
in the gap, the last of which may be cut short; without a gap it has one cycle without work.  Every cycle of a
gap goes on by one nanosecond at least and one window at most; all but the last are bulk cycles.  It ends at the
target, or where it was if that is later, and has called once if there was a gap. -/
theorem converge_inCycles {r : Refresher} {s : Store} {window start : Int64} (target : Int64)
    (hwindow : r.maxWindow = (ofWindow window).maxWindow) (hstart : r.BeginsAt s start)
    (hs : s.outage = false) (hnonneg : 0 ≤ start.toInt) :
    let width := max window.toInt 1
    ∃ cycles final stop, Cycles target r s cycles final stop ∧
      cycles.length = max 1 ((target.toInt - start.toInt).toNat ⌈/⌉ width.toNat) ∧
      r.converge s target false = (.ok true,
        { final with caughtUp := if start.toInt < target.toInt then r.caughtUp.fire.2 else r.caughtUp }, stop) ∧
      final.lastAggregated = some (Checked.larger start target) ∧
      (start.toInt < target.toInt → Spans width start target cycles) ∧
      (target.toInt ≤ start.toInt → ∀ c ∈ cycles, c.1.viewsRefreshed = 0) := by
  intro width
  have hlast := hstart.startPoint
  have hwidth : r.maxWindow.toInt = width := by rw [hwindow, maxWindow_ofWindow]
  by_cases hbehind : start.toInt < target.toInt
  · obtain ⟨cycles, final, stop, hcycles, hspans, hfinal, hsignal⟩ :=
      cycles_of_behind target _ r s start hlast hs hnonneg hbehind rfl
    rw [hwidth] at hspans
    have hsome : 0 < cycles.length := by
      have := congrArg List.length hspans.modes
      simp at this
      omega
    refine ⟨cycles, final, stop, hcycles, ?_, ?_, ?_, fun _ => hspans, fun h => by omega⟩
    · rw [← hspans.length]
      omega
    · have hworked : (cycles.any fun c => 0 < c.1.viewsRefreshed) = true := by
        obtain ⟨c, hc⟩ := List.exists_mem_of_length_pos hsome
        refine List.any_eq_true.2 ⟨c, hc, ?_⟩
        rw [hspans.working c hc]
        rfl
      rw [if_pos hbehind, ← hsignal]
      exact (hcycles.converge false).trans (by rw [hworked]; rfl)
    · rw [hfinal, Checked.larger, if_pos hbehind]
  · have hcycles := cycles_of_not_behind hlast (Int.not_lt.1 hbehind)
    refine ⟨_, _, s, hcycles, ?_, ?_, ?_, fun h => absurd h hbehind, fun _ => List.forall_mem_singleton.2 rfl⟩
    · have hgap : (target.toInt - start.toInt).toNat = 0 := by omega
      rw [hgap, zero_ceilDiv]
      rfl
    · rw [if_neg hbehind]
      exact hcycles.converge false
    · rw [Checked.larger, if_neg hbehind]

/-- A window of zero counts as one nanosecond: three cycles from an hour on, and one call. -/
theorem converge_inCycles_zeroWindow :
    let s := { Store.empty with watermarks := View.all.map fun v => (v, 3600000000000) }
    (ofWindow 0).BeginsAt s 3600000000000 ∧ ∃ cycles final stop,
      Cycles 3600000000003 (ofWindow 0) s cycles final stop ∧ cycles.length = 3 ∧
      (ofWindow 0).converge s 3600000000003 false = (.ok true, { final with caughtUp := Signal.fresh.fire.2 }, stop) ∧
      final.lastAggregated = some 3600000000003 ∧
      cycles.map (fun c => c.1.mode) = [.bulk, .bulk, .incremental] := by
  intro s
  have hbegins : (ofWindow 0).BeginsAt s 3600000000000 := by
    have hmark : ∀ v, s.watermark? v = some 3600000000000 := by
      rintro ⟨m, b⟩
      cases m <;> cases b <;> decide +kernel
    exact .marked rfl ⟨⟨.depths, .day⟩, hmark _⟩ fun v => ⟨_, hmark v, Int.le_refl _⟩
  obtain ⟨cycles, final, stop, hcycles, hlength, hconverge, hfinal, hspans, -⟩ :=
    converge_inCycles 3600000000003 rfl hbegins rfl (by decide)
  have hthree : cycles.length = 3 := hlength
  refine ⟨hbegins, cycles, final, stop, hcycles, hthree, hconverge, hfinal, ?_⟩
  rw [(hspans (by decide)).modes, hthree]
  rfl

end Refresher

end PoolIndexer
