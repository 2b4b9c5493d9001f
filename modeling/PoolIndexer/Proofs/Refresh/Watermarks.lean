import PoolIndexer.Proofs.Refresh.Coverage
import PoolIndexer.Proofs.Refresh.Rollup

/-!
# Proofs.Refresh.Watermarks — watermarks only rise, and all below them is aggregated

* `Worker.InStep`: no cycle of a refresher begins or ends above the frontier of a view.
* `Rollup.Sound`: the views are complete up to their frontiers and all refreshers are in step.
* `Rollup.kept_run`: all actions in any order keep this, and no watermark goes back.
* `Rollup.watermarks_complete`: what a watermark says.
-/

namespace PoolIndexer

/-! ### Refreshers -/

/-- The last cycle ended within the bucket of each frontier or below it, and so does the cycle under way
begin; where that has been it also ends. -/
structure Worker.InStep (k : Worker) (s : Store) (origin : Int64) (targets : List Int64) : Prop where
  last : ∀ t, k.refresher.lastAggregated = some t → ∀ v : View, v.bucket.start t.toInt ≤ s.frontier origin v
  begun : ∀ c, k.cycle = some c → ∀ v : View, v.bucket.start c.start.toInt ≤ s.frontier origin v
  done : ∀ c, k.cycle = some c → ∀ v ∉ c.rest, v.bucket.start c.stop.toInt ≤ s.frontier origin v
  asked : ∀ c, k.cycle = some c → ∃ t ∈ targets, c.stop.toInt ≤ t.toInt

namespace Worker

variable {k : Worker} {s s' : Store} {origin target : Int64} {targets : List Int64} {r : Refresher}

theorem InStep.raises (h : k.InStep s origin targets) (hs : s.Raises s') : k.InStep s' origin targets :=
  ⟨fun t ht v => Int.le_trans (h.last t ht v) (hs.frontier_le origin v),
    fun c hc v => Int.le_trans (h.begun c hc v) (hs.frontier_le origin v),
    fun c hc v hv => Int.le_trans (h.done c hc v hv) (hs.frontier_le origin v), h.asked⟩

theorem InStep.ask (h : k.InStep s origin targets) (target : Int64) :
    k.InStep s origin (target :: targets) := by
  refine ⟨h.last, h.begun, h.done, fun c hc => ?_⟩
  obtain ⟨t, ht, hle⟩ := h.asked c hc
  exact ⟨t, List.mem_cons_of_mem _ ht, hle⟩

theorem inStep_idle
    (hlast : ∀ t, r.lastAggregated = some t → ∀ v : View, v.bucket.start t.toInt ≤ s.frontier origin v) :
    InStep ⟨r, none⟩ s origin targets :=
  ⟨hlast, fun _ h => (nomatch h), fun _ h => (nomatch h), fun _ h => (nomatch h)⟩

theorem inStep_beginFrom {start : Int64} (hlast : r.lastAggregated = some start)
    (hstart : ∀ v : View, v.bucket.start start.toInt ≤ s.frontier origin v) (htarget : target ∈ targets) :
    (beginFrom r start target).InStep s origin targets := by
  have hidle : ∀ t, r.lastAggregated = some t → ∀ v : View, v.bucket.start t.toInt ≤ s.frontier origin v := by
    intro t ht
    obtain rfl : start = t := Option.some.inj (hlast.symm.trans ht)
    exact hstart
  unfold beginFrom
  split
  · exact inStep_idle hidle
  · split
    · exact inStep_idle hidle
    · rename_i gap _
      refine ⟨hidle, ?_, ?_, ?_⟩
      · rintro _ ⟨⟩
        exact hstart
      · rintro _ ⟨⟩ v hv
        exact absurd v.mem_all hv
      · rintro _ ⟨⟩
        refine ⟨target, htarget, ?_⟩
        show (Refresher.windowStop start target r.maxWindow).toInt ≤ target.toInt
        unfold Refresher.windowStop
        rw [Checked.toInt_smaller]
        exact Int.min_le_left _ _

/-- A new refresher begins at a watermark or at the first block, neither above any frontier. -/
theorem inStep_begin (h : InStep ⟨r, none⟩ s origin targets)
    (hfound : ∃ t, s.earliestBlock? = some t ∧ t.toInt ≤ origin.toInt) (htarget : target ∈ targets) :
    (begin r s target).InStep s origin targets := by
  unfold begin
  split
  · rename_i start hlast
    exact inStep_beginFrom hlast (h.last start hlast) htarget
  · split
    · exact h
    · rename_i start hstart
      refine inStep_beginFrom rfl (fun v => ?_) htarget
      rcases Refresher.startPoint_cases hstart with hmarks | hearliest
      · obtain ⟨w, hw, hle⟩ := hmarks v
        have hbucket := v.bucket.start_le start.toInt
        unfold Store.frontier
        rw [hw]
        exact Int.le_trans (Int.le_trans hbucket hle) (Int.le_max_right _ _)
      · obtain ⟨t, ht, hle⟩ := hfound
        obtain rfl : start = t := Option.some.inj (hearliest.symm.trans ht)
        refine Int.le_trans (v.bucket.start_mono hle) ?_
        unfold Store.frontier
        split
        · exact Int.le_max_left _ _
        · exact Int.le_refl _

/-- **One view**: a refresher stays in step, and so does its store. -/
theorem inStep_work (h : k.InStep s origin targets) (hs : s.Marks origin targets) :
    (k.work s).1.InStep (k.work s).2 origin targets ∧ (k.work s).2.Marks origin targets ∧
      (k.work s).2.rows = s.rows ∧ s.Raises (k.work s).2 := by
  unfold work
  cases hcycle : k.cycle with
  | none => exact ⟨h, hs, rfl, .refl s⟩
  | some c =>
    dsimp only
    cases hrest : c.rest with
    | nil =>
      refine ⟨inStep_idle ?_, hs, rfl, .refl s⟩
      rintro _ ⟨⟩ v
      exact h.done c hcycle v (by rw [hrest]; exact List.not_mem_nil)
    | cons v rest =>
      dsimp only
      cases hview : Refresher.refreshView c.start c.stop s v with
      | error e => exact ⟨inStep_idle h.last, hs, rfl, .refl s⟩
      | ok s' =>
        have hrefresh := Store.refreshes_refreshView hview
        have hraises := hrefresh.raises
        refine ⟨?_, hs.refreshed hrefresh (h.begun c hcycle v) (h.asked c hcycle), hrefresh.rows, hraises⟩
        have hk := h.raises hraises
        refine ⟨hk.last, ?_, ?_, ?_⟩
        · rintro _ ⟨⟩
          exact hk.begun c hcycle
        · rintro _ ⟨⟩ v' hv'
          by_cases hv : v' = v
          · subst hv
            rw [hrefresh.frontier_eq]
            exact Int.le_max_right _ _
          · refine hk.done c hcycle v' ?_
            rw [hrest]
            exact List.not_mem_cons_of_ne_of_not_mem hv hv'
        · rintro _ ⟨⟩
          exact h.asked c hcycle

end Worker

/-! ### All refreshers of a store -/

namespace Rollup

variable {w : Rollup} {origin : Int64}

/-- No refresh has found a block yet. -/
structure Fresh (w : Rollup) : Prop where
  watermarks : ∀ v, w.store.watermark? v = none
  workers : ∀ k ∈ w.workers, k.refresher.lastAggregated = none ∧ k.cycle = none

/-- All refreshers are in step with the store. -/
structure Sound (w : Rollup) (origin : Int64) : Prop where
  found : ∃ t, w.store.earliestBlock? = some t ∧ t.toInt ≤ origin.toInt
  marks : w.store.Marks origin w.targets
  workers : ∀ k ∈ w.workers, k.InStep w.store origin w.targets

/-- What all actions keep. -/
inductive Kept (w : Rollup) : Prop where
  | fresh (horigin : w.origin = none) (h : w.Fresh)
  | sound (origin : Int64) (horigin : w.origin = some origin) (h : w.Sound origin)

theorem Fresh.sound {targets : List Int64} (h : w.Fresh) (hearliest : w.store.earliestBlock? = some origin) :
    Sound { w with targets, origin := some origin } origin := by
  refine ⟨⟨origin, hearliest, Int.le_refl _⟩, ⟨?_, ?_, ?_⟩, fun k hk => ?_⟩
  · intro v m hm
    cases (h.watermarks v).symm.trans hm
  · intro v m hm
    cases (h.watermarks v).symm.trans hm
  · intro v b _ hlow hhigh
    unfold Store.frontier at hhigh
    rw [h.watermarks v] at hhigh
    have hwidth := v.bucket.width_pos
    dsimp only at hhigh
    omega
  · obtain ⟨r, cycle⟩ := k
    obtain ⟨hlast, hcycle⟩ := h.workers _ hk
    subst hcycle
    refine Worker.inStep_idle fun t ht => ?_
    cases hlast.symm.trans ht

theorem Sound.ask (h : w.Sound origin) (target : Int64) : (w.ask target).Sound origin := by
  refine ⟨h.found, ⟨h.marks.aligned, fun v m hm => ?_, h.marks.complete⟩,
    fun k hk => (h.workers k hk).ask target⟩
  obtain ⟨t, ht, hle⟩ := h.marks.asked v m hm
  exact ⟨t, List.mem_cons_of_mem _ ht, hle⟩

/-- One refresher and the store have moved on together. -/
theorem Sound.put (h : w.Sound origin) (i : Nat) {k : Worker} {s : Store} (hk : k.InStep s origin w.targets)
    (hs : s.Marks origin w.targets) (hrows : s.rows = w.store.rows) (hraises : w.store.Raises s) :
    (w.put i (k, s)).Sound origin := by
  obtain ⟨t, ht, hle⟩ := h.found
  have hearliest : s.earliestBlock? = w.store.earliestBlock? := by
    unfold Store.earliestBlock? Store.rowsOf
    rw [hrows]
  refine ⟨⟨t, hearliest.trans ht, hle⟩, hs, fun k' hk' => ?_⟩
  rcases List.mem_or_eq_of_mem_set hk' with hold | rfl
  · exact (h.workers k' hold).raises hraises
  · exact hk

theorem kept_ask (h : w.Kept) (target : Int64) : (w.ask target).Kept := by
  cases h with
  | fresh horigin h =>
    have hask : (w.ask target).origin = w.store.earliestBlock? := by
      unfold ask
      rw [horigin]
      rfl
    cases hearliest : w.store.earliestBlock? with
    | none => exact .fresh (hask.trans hearliest) ⟨h.watermarks, h.workers⟩
    | some origin =>
      have hsound : Sound { w with targets := target :: w.targets, origin := some origin } origin :=
        h.sound hearliest
      exact .sound origin (hask.trans hearliest) ⟨hsound.found, hsound.marks, hsound.workers⟩
  | sound origin horigin h =>
    have hask : (w.ask target).origin = some origin := by
      unfold ask
      rw [horigin]
      rfl
    exact .sound origin hask (h.ask target)

theorem kept_begin (h : w.Kept) (i : Nat) (target : Int64) : (w.begin i target).Kept := by
  have hask := kept_ask h target
  unfold begin
  split
  · rename_i r hi
    have hmem : (⟨r, none⟩ : Worker) ∈ (w.ask target).workers := List.mem_of_getElem? hi
    have hself : (w.ask target).put i (⟨r, none⟩, w.store) = w.ask target := put_self hi
    cases hask with
    | fresh horigin hfresh =>
      have hearliest : w.store.earliestBlock? = none := (Option.or_eq_none_iff.1 horigin).2
      have hlast : r.lastAggregated = none := (hfresh.workers _ hmem).1
      have hstart : Refresher.startPoint w.store = none :=
        (Refresher.startPoint_eq_earliestBlock? hfresh.watermarks).trans hearliest
      have hbegin : Worker.begin r w.store target = ⟨r, none⟩ := by
        unfold Worker.begin
        rw [hlast, hstart]
      rw [hbegin, hself]
      exact .fresh horigin hfresh
    | sound origin horigin hsound =>
      have hbegin := Worker.inStep_begin (hsound.workers _ hmem) hsound.found List.mem_cons_self
      exact .sound origin horigin (hsound.put i hbegin hsound.marks rfl (.refl _))
  · exact h

theorem kept_work (h : w.Kept) (i : Nat) : (w.work i).Kept ∧ w.store.Raises (w.work i).store := by
  cases hi : w.workers[i]? with
  | none =>
    have hwork : w.work i = w := by
      unfold work
      rw [hi]
    rw [hwork]
    exact ⟨h, .refl _⟩
  | some k =>
    have hmem := List.mem_of_getElem? hi
    rw [work_eq hi]
    cases h with
    | fresh horigin hfresh =>
      have hidle : k.work w.store = (k, w.store) := by
        unfold Worker.work
        rw [(hfresh.workers k hmem).2]
      rw [hidle, put_self hi]
      exact ⟨.fresh horigin hfresh, .refl _⟩
    | sound origin horigin hsound =>
      obtain ⟨hk, hs, hrows, hraises⟩ := Worker.inStep_work (hsound.workers k hmem) hsound.marks
      exact ⟨.sound origin horigin (hsound.put i hk hs hrows hraises), hraises⟩

theorem kept_create (h : w.Kept) (window : Int64) : (w.step (.create window)).Kept := by
  have hlast : (Refresher.ofWindow window).lastAggregated = none := by
    unfold Refresher.ofWindow
    split <;> rfl
  cases h with
  | fresh horigin h =>
    refine .fresh horigin ⟨h.watermarks, fun k hk => ?_⟩
    rcases List.mem_append.1 hk with hk | hk
    · exact h.workers k hk
    · rw [List.mem_singleton.1 hk]
      exact ⟨hlast, rfl⟩
  | sound origin horigin h =>
    refine .sound origin horigin ⟨h.found, h.marks, fun k hk => ?_⟩
    rcases List.mem_append.1 hk with hk | hk
    · exact h.workers k hk
    · rw [List.mem_singleton.1 hk]
      refine Worker.inStep_idle fun t ht => ?_
      cases hlast.symm.trans ht

theorem kept_disturb (h : w.Kept) (s : Store) : (w.step (.disturb s)).Kept := by
  cases h with
  | fresh horigin h => exact .fresh horigin ⟨h.watermarks, h.workers⟩
  | sound origin horigin h =>
    obtain ⟨t, ht, hle⟩ := h.found
    have hrows : (w.disturbed s).store.rows = w.store.rows ++ s.rows := rfl
    obtain ⟨t', ht', hle'⟩ := Store.earliestBlock?_append hrows ht
    refine .sound origin horigin ⟨⟨t', ht', Int.le_trans hle' hle⟩, ?_, fun k hk => ?_⟩
    · exact ⟨h.marks.aligned, h.marks.asked, h.marks.complete⟩
    · obtain ⟨hlast, hbegun, hdone, hasked⟩ := h.workers k hk
      exact ⟨hlast, hbegun, hdone, hasked⟩

theorem begin_store (w : Rollup) (i : Nat) (target : Int64) : (w.begin i target).store = w.store := by
  unfold begin
  split <;> rfl

theorem kept_works (h : w.Kept) (i n : Nat) :
    (w.run (List.replicate n (.work i))).Kept ∧ w.store.Raises (w.run (List.replicate n (.work i))).store := by
  induction n generalizing w with
  | zero => exact ⟨h, .refl _⟩
  | succ n ih =>
    obtain ⟨hwork, hraises⟩ := kept_work h i
    obtain ⟨hrest, hraises'⟩ := ih hwork
    exact ⟨hrest, hraises.trans hraises'⟩

/-- **One action**: a store stays sound, and no watermark goes back. -/
theorem kept_step (h : w.Kept) (a : RollupAction) : (w.step a).Kept ∧ w.store.Raises (w.step a).store := by
  cases a with
  | create window => exact ⟨kept_create h window, .refl _⟩
  | disturb s => exact ⟨kept_disturb h s, fun _ hc => hc, fun _ m hm => ⟨m, hm, Int.le_refl _⟩⟩
  | begin i target =>
    have hbegin := kept_begin h i target
    exact ⟨hbegin, by show w.store.Raises (w.begin i target).store; rw [begin_store]; exact .refl _⟩
  | work i => exact kept_work h i
  | refresh i target =>
    show (w.refresh i target).Kept ∧ w.store.Raises (w.refresh i target).store
    by_cases hi : ∃ r, w.workers[i]? = some ⟨r, none⟩
    · obtain ⟨r, hi⟩ := hi
      have hworks := kept_works (kept_begin h i target) i (View.all.length + 1)
      rw [begin_store] at hworks
      rw [refresh_eq_run hi]
      exact hworks
    · have hrefresh : w.refresh i target = w := by
        unfold refresh
        split
        · rename_i r hr
          exact absurd ⟨r, hr⟩ hi
        · rfl
      rw [hrefresh]
      exact ⟨h, .refl _⟩

/-- **All actions**, in any order. -/
theorem kept_run (h : w.Kept) (actions : List RollupAction) :
    (w.run actions).Kept ∧ w.store.Raises (w.run actions).store := by
  induction actions generalizing w with
  | nil => exact ⟨h, .refl _⟩
  | cons a rest ih =>
    obtain ⟨hstep, hraises⟩ := kept_step h a
    obtain ⟨hrest, hraises'⟩ := ih hstep
    exact ⟨hrest, hraises.trans hraises'⟩

theorem kept_start (s : Store) : (start s).Kept :=
  .fresh rfl ⟨fun _ => rfl, fun _ hk => absurd hk List.not_mem_nil⟩

/-- **Watermarks**: whatever refreshers work on a store, whatever they are asked for and wherever they fail,
a watermark `mark` never goes back and is not above every target.  Each bucket of its view from the one of
the first block on that ends at `mark` or below was refreshed in full by a single call. -/
theorem watermarks_complete (s : Store) (actions more : List RollupAction) (v : View) (mark : Int64)
    (hmark : ((start s).run actions).store.watermark? v = some mark) :
    let w := (start s).run actions
    (∃ later, (w.run more).store.watermark? v = some later ∧ mark.toInt ≤ later.toInt) ∧
      (∃ target ∈ w.targets, mark.toInt ≤ target.toInt) ∧
      ∃ origin, w.origin = some origin ∧
        ∀ b, v.bucket.width ∣ b → v.bucket.start origin.toInt ≤ b → b + v.bucket.width ≤ mark.toInt →
          ∃ c ∈ w.store.refreshes, c.view = v ∧ c.start.toInt ≤ b ∧ b + v.bucket.width ≤ c.stop.toInt := by
  intro w
  obtain ⟨hkept, -⟩ := kept_run (kept_start s) actions
  obtain ⟨-, hraises⟩ := kept_run hkept more
  refine ⟨hraises.watermarks v mark hmark, ?_⟩
  cases hkept with
  | fresh horigin hfresh => cases (hfresh.watermarks v).symm.trans hmark
  | sound origin horigin hsound =>
    refine ⟨hsound.marks.asked v mark hmark, origin, horigin, fun b hb hlow hhigh => ?_⟩
    refine hsound.marks.complete v b hb hlow ?_
    unfold Store.frontier
    rw [hmark]
    exact Int.le_trans hhigh (Int.le_max_right _ _)

/-- A cycle fails at its sixth view; two more refreshers go on, the second from the oldest watermark. -/
def interrupted : List RollupAction :=
  [.create 7200000000000, .begin 0 36000000000000, .work 0, .work 0, .work 0, .work 0, .work 0,
    .disturb { Store.empty with outage := true }, .work 0, .disturb Store.empty,
    .create 86400000000000, .refresh 1 36000000000000, .create 86400000000000, .refresh 2 50000000000000]

/-- The hours of swaps after an interrupted cycle, over a store whose first block is in the second hour. -/
theorem watermarks_interrupted :
    let w := (start { Store.empty with rows := [⟨"block_log", ["timestamp"], [.bigint 5400000000000]⟩] }).run
      interrupted
    w.store.watermark? ⟨.swaps, .hour⟩ = some 46800000000000 ∧ w.origin = some 5400000000000 ∧
      ∃ c ∈ w.store.refreshes, c.view = ⟨.swaps, .hour⟩ ∧ c.start.toInt ≤ 7200000000000 ∧
        7200000000000 + Bucket.hour.width ≤ c.stop.toInt := by
  intro w
  have hmark : w.store.watermark? ⟨.swaps, .hour⟩ = some 46800000000000 := by decide +kernel
  have horigin : w.origin = some 5400000000000 := by decide +kernel
  obtain ⟨-, -, origin, hfound, hcomplete⟩ := watermarks_complete _ interrupted [] _ _ hmark
  obtain rfl : 5400000000000 = origin := Option.some.inj (horigin.symm.trans hfound)
  exact ⟨hmark, horigin, hcomplete 7200000000000 (by decide) (by decide) (by decide)⟩

end Rollup

end PoolIndexer
