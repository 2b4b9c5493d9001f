import PoolIndexer.Proofs.Basic
import PoolIndexer.Refresh.Refresher

/-!
# Proofs.Refresh.Coverage — below its frontier a view has every bucket in full

* `Store.Aggregated`: a bucket lies within one refresh of its view.
* `Store.frontier`: up to where a view is complete, its watermark or the bucket of the first block.
* `Store.Marks.refreshed`: a refresh that begins at the frontier of its view or below leaves nothing out.
* `Refresher.startPoint_cases`: a new refresher begins at a watermark or at the first block.
-/

namespace PoolIndexer

/-! ### Buckets -/

namespace Bucket

/-- The width in nanoseconds as a number. -/
def width (b : Bucket) : Int := b.seconds * 1000000000

/-- The beginning of the bucket that `t` lies in. -/
def start (b : Bucket) (t : Int) : Int := t - t % b.width

theorem toInt_nanos (b : Bucket) : b.nanos.toInt = b.width := by cases b <;> decide

theorem width_pos (b : Bucket) : 0 < b.width := by cases b <;> decide

theorem floor_eq_ok_iff {b : Bucket} {t f : Int64} : b.floor t = .ok f ↔ f.toInt = b.start t.toInt := by
  have hlow : 0 ≤ t.toInt % b.width := Int.emod_nonneg _ (Int.ne_of_gt b.width_pos)
  have hhigh : t.toInt % b.width < b.width := Int.emod_lt_of_pos _ b.width_pos
  have hwidth : b.width ≤ 86400000000000 := by cases b <;> decide
  have hexact : (Int64.ofInt (t.toInt % b.width)).toInt = t.toInt % b.width :=
    Int64.toInt_ofInt_of_le (by omega) (by omega)
  unfold floor start
  rw [Checked.sub_eq_ok_iff, toInt_nanos, hexact]

theorem start_le (b : Bucket) (t : Int) : b.start t ≤ t := by
  have := Int.emod_nonneg t (Int.ne_of_gt b.width_pos)
  unfold start
  omega

theorem lt_start_add (b : Bucket) (t : Int) : t < b.start t + b.width := by
  have := Int.emod_lt_of_pos t b.width_pos
  unfold start
  omega

theorem width_dvd_start (b : Bucket) (t : Int) : b.width ∣ b.start t := Int.dvd_self_sub_emod

/-- Of two beginnings the one that is less than a width above the other is not above it. -/
theorem le_of_lt_add {b : Bucket} {x y : Int} (hx : b.width ∣ x) (hy : b.width ∣ y) (h : x < y + b.width) :
    x ≤ y := by
  obtain ⟨m, rfl⟩ := hx
  obtain ⟨n, rfl⟩ := hy
  have hmn : m < n + 1 := by
    refine Int.lt_of_mul_lt_mul_left (a := b.width) ?_ (Int.le_of_lt b.width_pos)
    rw [Int.mul_add, Int.mul_one]
    exact h
  exact Int.mul_le_mul_of_nonneg_left (Int.le_of_lt_add_one hmn) (Int.le_of_lt b.width_pos)

theorem start_mono (b : Bucket) {s t : Int} (h : s ≤ t) : b.start s ≤ b.start t := by
  refine le_of_lt_add (b.width_dvd_start s) (b.width_dvd_start t) ?_
  have hs := b.start_le s
  have ht := b.lt_start_add t
  omega

end Bucket

theorem View.mem_all (v : View) : v ∈ View.all := by
  obtain ⟨m, b⟩ := v
  cases m <;> cases b <;> decide

/-! ### What a store keeps of its refreshes -/

namespace Store

/-- The bucket of `v` that begins at `b` lies within one refresh. -/
def Aggregated (s : Store) (v : View) (b : Int) : Prop :=
  ∃ c ∈ s.refreshes, c.view = v ∧ c.start.toInt ≤ b ∧ b + v.bucket.width ≤ c.stop.toInt

/-- Up to where `v` is complete, if `origin` is where it began. -/
def frontier (s : Store) (origin : Int64) (v : View) : Int :=
  match s.watermark? v with
  | some w => max (v.bucket.start origin.toInt) w.toInt
  | none => v.bucket.start origin.toInt

/-- No refresh is forgotten and no watermark goes back. -/
structure Raises (s s' : Store) : Prop where
  refreshes : s.refreshes ⊆ s'.refreshes
  watermarks : ∀ v w, s.watermark? v = some w → ∃ w', s'.watermark? v = some w' ∧ w.toInt ≤ w'.toInt

theorem Raises.refl (s : Store) : s.Raises s := ⟨fun _ h => h, fun _ w h => ⟨w, h, Int.le_refl _⟩⟩

theorem Raises.trans {s s' s'' : Store} (h : s.Raises s') (h' : s'.Raises s'') : s.Raises s'' := by
  refine ⟨fun _ hc => h'.refreshes (h.refreshes hc), fun v w hw => ?_⟩
  obtain ⟨w', hw', hle⟩ := h.watermarks v w hw
  obtain ⟨w'', hw'', hle'⟩ := h'.watermarks v w' hw'
  exact ⟨w'', hw'', Int.le_trans hle hle'⟩

theorem Raises.aggregated {s s' : Store} (h : s.Raises s') {v : View} {b : Int} (hb : s.Aggregated v b) :
    s'.Aggregated v b := by
  obtain ⟨c, hc, hrange⟩ := hb
  exact ⟨c, h.refreshes hc, hrange⟩

theorem Raises.frontier_le {s s' : Store} (h : s.Raises s') (origin : Int64) (v : View) :
    s.frontier origin v ≤ s'.frontier origin v := by
  unfold frontier
  cases hw : s.watermark? v with
  | some w =>
    obtain ⟨w', hw', hle⟩ := h.watermarks v w hw
    rw [hw']
    dsimp only
    omega
  | none =>
    dsimp only
    split <;> omega

theorem watermark?_setWatermark (s : Store) (v v' : View) (t : Int64) :
    (s.setWatermark v t).watermark? v' = if v' = v then some t else s.watermark? v' := by
  show ((v, t) :: s.watermarks.filter fun p => p.1 ≠ v).lookup v' = _
  rw [List.lookup_cons]
  by_cases h : v' = v
  · rw [if_pos h, beq_iff_eq.2 h]
  · rw [if_neg h, beq_false_of_ne h]
    exact lookup_filter_ne s.watermarks h

/-- **A refresh**: the call is noted, and its view gets the later of the two watermarks. -/
theorem refreshView_eq_ok {s s' : Store} {c : RefreshCall} (h : s.refreshView c = .ok s') :
    s'.rows = s.rows ∧ s'.refreshes = s.refreshes ++ [c] ∧
      ∃ w, (∀ v, s'.watermark? v = if v = c.view then some w else s.watermark? v) ∧
        w.toInt = match s.watermark? c.view with
          | some old => max old.toInt c.watermark.toInt
          | none => c.watermark.toInt := by
  unfold refreshView at h
  split at h
  · cases h
  · cases h
    refine ⟨rfl, rfl, _, fun v => watermark?_setWatermark _ c.view v _, ?_⟩
    cases s.watermark? c.view with
    | some old => exact Checked.toInt_larger old c.watermark
    | none => rfl

/-! ### Where a refresher begins -/

theorem foldl_smaller_le (t : Int64) (ts : List Int64) :
    ∀ u ∈ t :: ts, (ts.foldl Checked.smaller t).toInt ≤ u.toInt := by
  induction ts generalizing t with
  | nil =>
    intro u hu
    rw [List.mem_singleton.1 hu]
    exact Int.le_refl _
  | cons t' ts ih =>
    intro u hu
    have hrest := ih (Checked.smaller t t')
    have hfirst := hrest _ List.mem_cons_self
    rw [Checked.toInt_smaller] at hfirst
    rw [List.foldl_cons]
    rcases List.mem_cons.1 hu with rfl | hu
    · omega
    · rcases List.mem_cons.1 hu with rfl | hu
      · omega
      · exact hrest u (List.mem_cons_of_mem _ hu)

/-- More rows can only show an earlier first block. -/
theorem earliestBlock?_append {s s' : Store} {more : List Row} (hrows : s'.rows = s.rows ++ more) {t : Int64}
    (h : s.earliestBlock? = some t) : ∃ t', s'.earliestBlock? = some t' ∧ t'.toInt ≤ t.toInt := by
  unfold earliestBlock? rowsOf at h ⊢
  rw [hrows, List.filter_append, List.filterMap_append]
  split at h
  · cases h
  · rename_i t₀ ts htimes
    cases h
    rw [htimes, List.cons_append]
    refine ⟨_, rfl, ?_⟩
    rw [List.foldl_append]
    exact foldl_smaller_le _ _ _ List.mem_cons_self

end Store

theorem Refresher.startPoint_cases {s : Store} {start : Int64} (h : startPoint s = some start) :
    (∀ v, ∃ w, s.watermark? v = some w ∧ start.toInt ≤ w.toInt) ∨ s.earliestBlock? = some start := by
  unfold startPoint at h
  split at h
  · exact .inr h
  · cases h
  · rename_i w ws hmarks
    cases h
    refine .inl fun v => ?_
    obtain ⟨w', hmem, hw'⟩ := (results_of_mapM hmarks).1 v v.mem_all
    exact ⟨w', hw', Store.foldl_smaller_le w ws w' hmem⟩

theorem Refresher.startPoint_eq_earliestBlock? {s : Store} (h : ∀ v, s.watermark? v = none) :
    startPoint s = s.earliestBlock? := by
  have hmarks : View.all.mapM s.watermark? = none := by
    show ((⟨.depths, .fiveMin⟩ : View) :: View.all.tail).mapM s.watermark? = none
    rw [List.mapM_cons, h]
    rfl
  unfold startPoint
  rw [hmarks]

/-- The end of a window, or the latest time there is. -/
theorem Refresher.toInt_windowEnd {start window : Int64} (hwindow : 0 ≤ window.toInt) :
    (windowEnd start window).toInt = min (start.toInt + window.toInt) (2 ^ 63 - 1) := by
  have hlow := Int64.le_toInt start
  have hlast : Int64.maxValue.toInt = 2 ^ 63 - 1 := by decide
  unfold windowEnd
  cases hfit : Checked.fit? (start.toInt + window.toInt) with
  | some stop =>
    have hstop := Checked.fit?_eq_some_iff.1 hfit
    have hbound := Int64.toInt_lt stop
    dsimp only
    omega
  | none =>
    have hbeyond : ¬ start.toInt + window.toInt < 2 ^ 63 := by
      intro hroom
      have hsum := Int64.toInt_ofInt_of_le (by omega) hroom
      rw [Checked.fit?_eq_some_iff.2 hsum] at hfit
      cases hfit
    dsimp only
    omega

/-! ### One refresh -/

namespace Store

variable {s s' : Store} {origin start stop : Int64} {targets : List Int64} {v : View}

/-- Each watermark begins a bucket, is not above all targets, and below it the view is complete. -/
structure Marks (s : Store) (origin : Int64) (targets : List Int64) : Prop where
  aligned : ∀ v w, s.watermark? v = some w → v.bucket.width ∣ w.toInt
  asked : ∀ v w, s.watermark? v = some w → ∃ t ∈ targets, w.toInt ≤ t.toInt
  complete : ∀ v b, v.bucket.width ∣ b → v.bucket.start origin.toInt ≤ b →
    b + v.bucket.width ≤ s.frontier origin v → s.Aggregated v b

theorem Marks.dvd_frontier (h : s.Marks origin targets) (v : View) : v.bucket.width ∣ s.frontier origin v := by
  have horigin := v.bucket.width_dvd_start origin.toInt
  unfold frontier
  cases hw : s.watermark? v with
  | none => exact horigin
  | some w =>
    rcases Int.le_total (v.bucket.start origin.toInt) w.toInt with hle | hle
    · show _ ∣ max _ _
      rw [Int.max_eq_right hle]
      exact h.aligned v w hw
    · show _ ∣ max _ _
      rw [Int.max_eq_left hle]
      exact horigin

/-- What the refresh of a view from the bucket of `start` to `stop` does, if the store takes it. -/
structure Refreshes (s s' : Store) (start stop : Int64) (v : View) : Prop where
  rows : s'.rows = s.rows
  call : ∃ low mark : Int64, low.toInt = v.bucket.start start.toInt ∧
    s'.refreshes = s.refreshes ++ [⟨v, low, stop, mark⟩]
  mark : ∃ w, s'.watermark? v = some w ∧
    w.toInt = match s.watermark? v with
      | some old => max old.toInt (v.bucket.start stop.toInt)
      | none => v.bucket.start stop.toInt
  others : ∀ v', v' ≠ v → s'.watermark? v' = s.watermark? v'

theorem refreshes_refreshView (h : Refresher.refreshView start stop s v = .ok s') :
    s.Refreshes s' start stop v := by
  unfold Refresher.refreshView at h
  split at h
  · cases h
  · cases h
  · rename_i low mark hlow hmark
    cases hstore : s.refreshView ⟨v, low, stop, mark⟩ with
    | error e =>
      rw [hstore] at h
      cases h
    | ok s₁ =>
      rw [hstore] at h
      cases h
      obtain ⟨hrows, hcall, w, hwatermark, hw⟩ := refreshView_eq_ok hstore
      have hmark : mark.toInt = v.bucket.start stop.toInt := Bucket.floor_eq_ok_iff.1 hmark
      refine ⟨hrows, ⟨low, mark, Bucket.floor_eq_ok_iff.1 hlow, hcall⟩, ⟨w, ?_, ?_⟩, fun v' hne => ?_⟩
      · rw [hwatermark, if_pos rfl]
      · rw [← hmark]
        exact hw
      · rw [hwatermark, if_neg hne]

theorem Refreshes.raises (h : s.Refreshes s' start stop v) : s.Raises s' := by
  constructor
  · obtain ⟨low, mark, _, hcalls⟩ := h.call
    rw [hcalls]
    exact List.subset_append_left _ _
  · intro v' old hold
    by_cases hv : v' = v
    · subst hv
      obtain ⟨w, hw, hmax⟩ := h.mark
      rw [hold] at hmax
      exact ⟨w, hw, by rw [hmax]; exact Int.le_max_left _ _⟩
    · exact ⟨old, by rw [h.others v' hv, hold], Int.le_refl _⟩

theorem Refreshes.frontier_eq (h : s.Refreshes s' start stop v) (origin : Int64) :
    s'.frontier origin v = max (s.frontier origin v) (v.bucket.start stop.toInt) := by
  obtain ⟨w, hw, hmax⟩ := h.mark
  unfold frontier
  rw [hw]
  dsimp only
  rw [hmax]
  cases s.watermark? v with
  | some old => exact (Int.max_assoc _ _ _).symm
  | none => rfl

/-- A watermark after the refresh was there before, or it is the bucket in which the refresh stopped. -/
theorem Refreshes.watermark_cases (h : s.Refreshes s' start stop v) {v' : View} {w : Int64}
    (hw : s'.watermark? v' = some w) :
    s.watermark? v' = some w ∨ v' = v ∧ w.toInt = v.bucket.start stop.toInt := by
  by_cases hv : v' = v
  · subst hv
    obtain ⟨mark, hmark, hmax⟩ := h.mark
    obtain rfl : mark = w := Option.some.inj (hmark.symm.trans hw)
    cases hold : s.watermark? v' with
    | none =>
      rw [hold] at hmax
      exact .inr ⟨rfl, hmax⟩
    | some old =>
      rw [hold] at hmax
      dsimp only at hmax
      rcases Int.le_total old.toInt (v'.bucket.start stop.toInt) with hle | hle
      · rw [Int.max_eq_right hle] at hmax
        exact .inr ⟨rfl, hmax⟩
      · rw [Int.max_eq_left hle] at hmax
        exact .inl (congrArg some (Int64.toInt_inj.1 hmax.symm))
  · rw [h.others v' hv] at hw
    exact .inl hw

theorem Refreshes.frontier_of_ne (h : s.Refreshes s' start stop v) (origin : Int64) {v' : View} (hv : v' ≠ v) :
    s'.frontier origin v' = s.frontier origin v' := by
  unfold frontier
  rw [h.others v' hv]

/-- **Coverage**: a refresh that begins below the frontier of its view leaves nothing out. -/
theorem Marks.refreshed (h : s.Marks origin targets) (hrefresh : s.Refreshes s' start stop v)
    (hstart : v.bucket.start start.toInt ≤ s.frontier origin v)
    (hasked : ∃ t ∈ targets, stop.toInt ≤ t.toInt) : s'.Marks origin targets := by
  have hstop := v.bucket.start_le stop.toInt
  constructor
  · intro v' w hw
    rcases hrefresh.watermark_cases hw with hold | ⟨rfl, hmark⟩
    · exact h.aligned v' w hold
    · rw [hmark]
      exact v'.bucket.width_dvd_start stop.toInt
  · intro v' w hw
    rcases hrefresh.watermark_cases hw with hold | ⟨rfl, hmark⟩
    · exact h.asked v' w hold
    · obtain ⟨t, ht, hle⟩ := hasked
      exact ⟨t, ht, by omega⟩
  · intro v' b hb hlow hhigh
    by_cases hcovered : b + v'.bucket.width ≤ s.frontier origin v'
    · exact hrefresh.raises.aggregated (h.complete v' b hb hlow hcovered)
    · by_cases hv : v' = v
      · -- a bucket that was not complete begins at the frontier or above, so this refresh has all of it
        subst hv
        have hb' : s.frontier origin v' ≤ b := Bucket.le_of_lt_add (h.dvd_frontier v') hb (by omega)
        obtain ⟨low, mark, hlow', hcalls⟩ := hrefresh.call
        rw [hrefresh.frontier_eq] at hhigh
        refine ⟨⟨v', low, stop, mark⟩, ?_, rfl, ?_, ?_⟩
        · rw [hcalls]
          exact List.mem_append_right _ (List.mem_singleton_self _)
        · show low.toInt ≤ b
          omega
        · show b + v'.bucket.width ≤ stop.toInt
          omega
      · rw [hrefresh.frontier_of_ne origin hv] at hhigh
        exact absurd hhigh hcovered

end Store

end PoolIndexer
