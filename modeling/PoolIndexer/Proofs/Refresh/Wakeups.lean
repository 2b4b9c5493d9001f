import Mathlib.Data.List.Basic
import Mathlib.Logic.Relation
import PoolIndexer.Ingest.Ingestor
import PoolIndexer.Proofs.Refresh.Coverage
import PoolIndexer.Refresh.Loop

/-!
# Proofs.Refresh.Wakeups — no commit is forgotten

* `Watch`: a refresh loop that may be between any two of its steps, and commits that come in two steps.
* `Watch.Step`: a commit is published, then calls; the refresher is woken by a call or a tick, then reads
  what is committed, then converges.  The steps of the two sides come in any order.
* `Watch.steps_publish` and `Watch.steps_answerCall`: in a row they are what the ingestor and the loop do.
* `Watch.Informed`: what every step keeps.  Where the latest commit has not been reached, a call is waiting,
  one is about to be made, or the refresher has yet to read.
* `reached_committed`: so a refresher that waits without a call has reached the latest commit.
-/

namespace PoolIndexer

/-- Whether it is queued or dropped, after a call one is waiting. -/
theorem Signal.fire_of_listening {c : Signal} (h : c.listening = true) :
    c.fire.2.listening = true ∧ c.fire.2.pending = true ∧ c.fire.2.dropped + c.fire.1.toNat = c.dropped + 1 ∧
      c.pending.toNat + c.fire.1.toNat = 1 := by
  unfold fire
  cases c.pending <;> simp [h]

namespace Refresher

/-- The next nanosecond, or the latest time there is. -/
theorem toInt_targetOf (t : Int64) : (targetOf t).toInt = min (t.toInt + 1) (2 ^ 63 - 1) :=
  toInt_windowEnd (by decide)

theorem converge_of_caughtUp {r : Refresher} {s : Store} {target : Int64} {o : RefreshOutcome}
    (h : (r.refreshOnce s target).1 = .ok o) (ho : o.caughtUp = true) (cancelled : Bool) :
    (r.converge s target cancelled).1 = .ok true := by
  unfold converge
  rw [convergeAfter]
  split
  · rename_i e r' s' hfail
    rw [hfail] at h
    cases h
  · rename_i o' r' s' hok
    rw [hok] at h
    cases h
    rw [dif_pos ho]

end Refresher

/-! ### Two sides -/

inductive Watch.Stage where
  | waiting
  /-- Woken, and about to read what is committed. -/
  | awake
  | aimed (target : Int64)

structure Watch where
  loop : RefreshLoop
  stage : Watch.Stage
  /-- A commit has been published and is about to call. -/
  announcing : Bool
  /-- How many calls have been made, how many of them were queued, and how many of those were taken. -/
  fired : Nat
  queued : Nat
  taken : Nat
  /-- Whether the refresher has been woken at all. -/
  woken : Bool
  /-- What the refresher has converged to last. -/
  reached : Option Int64

namespace Watch

/-- Before the refresher is woken for the first time. -/
def start (l : RefreshLoop) : Watch := ⟨l, .waiting, false, 0, 0, 0, false, none⟩

inductive Step : Watch → Watch → Prop
  | publish {x : Watch} (t : Int64) : x.announcing = false →
      Step x { x with loop := { x.loop with committed := some t }, announcing := true }
  | fire {x : Watch} : x.announcing = true →
      Step x { x with
        loop := { x.loop with calls := x.loop.calls.fire.2 }
        announcing := false
        fired := x.fired + 1
        queued := x.queued + x.loop.calls.fire.1.toNat }
  /-- The refresher is woken by a call. -/
  | take {x : Watch} : x.stage = .waiting → x.loop.calls.tryTake.1 = true →
      Step x { x with
        loop := { x.loop with calls := x.loop.calls.tryTake.2 }
        stage := .awake
        taken := x.taken + 1
        woken := true }
  /-- The refresher is woken because an interval has passed. -/
  | tick {x : Watch} : x.stage = .waiting → Step x { x with stage := .awake, woken := true }
  | read {x : Watch} {t : Int64} : x.stage = .awake → x.loop.committed = some t →
      Step x { x with stage := .aimed (Refresher.targetOf t) }
  /-- There is no commit to follow yet. -/
  | readNothing {x : Watch} : x.stage = .awake → x.loop.committed = none → Step x { x with stage := .waiting }
  | converge {x : Watch} {target : Int64} : x.stage = .aimed target →
      (x.loop.refresher.converge x.loop.store target false).1 = .ok true →
      Step x { x with
        loop := { x.loop with
          refresher := (x.loop.refresher.converge x.loop.store target false).2.1
          store := (x.loop.refresher.converge x.loop.store target false).2.2 }
        stage := .waiting
        reached := some target }
  /-- Somebody else writes to the store. -/
  | write {x : Watch} (s : Store) : Step x { x with loop := { x.loop with store := s } }

/-- Any number of steps. -/
def Steps (x y : Watch) : Prop := Relation.ReflTransGen Step x y

/-! ### Steps in a row -/

/-- What an ingestor does to publish a commit. -/
theorem steps_publish {x : Watch} {g : Ingestor} (hcalls : x.loop.calls = g.refresh) (hidle : x.announcing = false)
    (t : Track) (stats : FlushStats) :
    ∃ y, x.Steps y ∧ y.loop.committed = (g.publish t stats).published.map Track.timestamp ∧
      y.loop.calls = (g.publish t stats).refresh ∧ y.stage = x.stage ∧ y.announcing = false := by
  refine ⟨_, .tail (.single (.publish t.timestamp hidle)) (.fire rfl), rfl, ?_, rfl, rfl⟩
  show x.loop.calls.fire.2 = g.refresh.fire.2
  rw [hcalls]

/-- What a loop does once it is awake. -/
theorem steps_wake {x : Watch} (hrunning : x.loop.state = .running) (hstage : x.stage = .awake)
    (hconverges : ∀ t, x.loop.committed = some t →
      (x.loop.refresher.converge x.loop.store (Refresher.targetOf t) false).1 = .ok true) :
    ∃ y, x.Steps y ∧ y.loop = x.loop.wake ∧ y.stage = .waiting := by
  unfold RefreshLoop.wake
  rw [hrunning]
  cases hcommitted : x.loop.committed with
  | none => exact ⟨_, .single (.readNothing hstage hcommitted), rfl, rfl⟩
  | some t =>
    have hok := hconverges t hcommitted
    refine ⟨_, .tail (.single (.read hstage hcommitted)) (.converge rfl hok), ?_, rfl⟩
    dsimp only
    cases hresult : x.loop.refresher.converge x.loop.store (Refresher.targetOf t) false with
    | mk result p =>
      rw [hresult] at hok
      obtain rfl : result = .ok true := hok
      rw [hcommitted, hrunning]

/-- What a loop does about a waiting call. -/
theorem steps_answerCall {x : Watch} (hrunning : x.loop.state = .running) (hstage : x.stage = .waiting)
    (hpending : x.loop.calls.pending = true)
    (hconverges : ∀ t, x.loop.committed = some t →
      (x.loop.refresher.converge x.loop.store (Refresher.targetOf t) false).1 = .ok true) :
    ∃ y, x.Steps y ∧ y.loop = x.loop.answerCall ∧ y.stage = .waiting := by
  have htake : x.loop.calls.tryTake.1 = true := by simp [Signal.tryTake, hpending]
  obtain ⟨y, hsteps, hloop, hwaiting⟩ := steps_wake
    (x := { x with loop := { x.loop with calls := x.loop.calls.tryTake.2 }, stage := .awake, taken := x.taken + 1,
                   woken := true }) hrunning rfl hconverges
  refine ⟨y, .head (.take hstage htake) hsteps, hloop.trans ?_, hwaiting⟩
  simp [RefreshLoop.answerCall, Signal.tryTake, hpending]

/-! ### What every step keeps -/

structure Informed (x : Watch) : Prop where
  listening : x.loop.calls.listening = true
  /-- A commit that came after the last reading still has its call before it. -/
  aimed : ∀ target, x.stage = .aimed target → x.loop.calls.pending = false → x.announcing = false →
    x.loop.committed.map Refresher.targetOf = some target
  waiting : x.stage = .waiting → x.loop.calls.pending = false → x.announcing = false → x.woken = true →
    x.reached = x.loop.committed.map Refresher.targetOf
  /-- Without a commit there is nothing to reach. -/
  uncommitted : x.loop.committed = none → x.reached = none ∧ ∀ target, x.stage ≠ .aimed target
  dropped : x.loop.calls.dropped + x.queued = x.fired
  queued : x.queued = x.taken + x.loop.calls.pending.toNat

theorem informed_start {l : RefreshLoop} (hfresh : l.calls = .fresh) : (start l).Informed where
  listening := by simp [start, hfresh, Signal.fresh]
  aimed := by simp [start]
  waiting := by simp [start]
  uncommitted := by simp [start]
  dropped := by simp [start, hfresh, Signal.fresh]
  queued := by simp [start, hfresh, Signal.fresh]

theorem informed_step {x y : Watch} (h : x.Informed) (hstep : Step x y) : y.Informed := by
  cases hstep with
  | publish t hidle =>
    exact
      { listening := h.listening, dropped := h.dropped, queued := h.queued
        aimed := fun _ _ _ hannounced => by cases hannounced
        waiting := fun _ _ hannounced => by cases hannounced
        uncommitted := fun hnone => by cases hnone }
  | fire hannouncing =>
    obtain ⟨hlistening, hpending, hdropped, hqueued⟩ := Signal.fire_of_listening h.listening
    have hdropped₀ := h.dropped
    have hqueued₀ := h.queued
    exact
      { listening := hlistening
        aimed := fun _ _ hnone => by cases hpending.symm.trans hnone
        waiting := fun _ hnone => by cases hpending.symm.trans hnone
        uncommitted := h.uncommitted
        dropped := by dsimp only; omega
        queued := by dsimp only; rw [hpending, Bool.toNat_true]; omega }
  | take hstage htaken =>
    have hpending : x.loop.calls.pending = true := by
      cases hp : x.loop.calls.pending with
      | true => rfl
      | false => simp [Signal.tryTake, hp] at htaken
    have hqueued := h.queued
    rw [hpending, Bool.toNat_true] at hqueued
    simp only [Signal.tryTake, hpending, if_true]
    exact
      { listening := h.listening, dropped := h.dropped
        aimed := fun _ haimed => by cases haimed
        waiting := fun hwaiting => by cases hwaiting
        uncommitted := fun hnone => ⟨(h.uncommitted hnone).1, fun _ haimed => by cases haimed⟩
        queued := hqueued }
  | tick hstage =>
    exact
      { listening := h.listening, dropped := h.dropped, queued := h.queued
        aimed := fun _ haimed => by cases haimed
        waiting := fun hwaiting => by cases hwaiting
        uncommitted := fun hnone => ⟨(h.uncommitted hnone).1, fun _ haimed => by cases haimed⟩ }
  | read hstage hcommitted =>
    exact
      { listening := h.listening, dropped := h.dropped, queued := h.queued
        aimed := fun _ haimed _ _ => by cases haimed; simp [hcommitted]
        waiting := fun hwaiting => by cases hwaiting
        uncommitted := fun hnone => by cases hcommitted.symm.trans hnone }
  | readNothing hstage hcommitted =>
    exact
      { listening := h.listening, dropped := h.dropped, queued := h.queued
        aimed := fun _ haimed => by cases haimed
        waiting := fun _ _ _ _ => by simp [hcommitted, (h.uncommitted hcommitted).1]
        uncommitted := fun hnone => ⟨(h.uncommitted hnone).1, fun _ haimed => by cases haimed⟩ }
  | converge hstage hok =>
    exact
      { listening := h.listening, dropped := h.dropped, queued := h.queued
        aimed := fun _ haimed => by cases haimed
        waiting := fun _ hnone hidle _ => (h.aimed _ hstage hnone hidle).symm
        uncommitted := fun hnone => absurd hstage ((h.uncommitted hnone).2 _) }
  | write s =>
    exact
      { listening := h.listening, aimed := h.aimed, waiting := h.waiting, uncommitted := h.uncommitted,
        dropped := h.dropped, queued := h.queued }

theorem informed_steps {x y : Watch} (hsteps : x.Steps y) (h : x.Informed) : y.Informed := by
  induction hsteps with
  | refl => exact h
  | tail _ hstep ih => exact informed_step ih hstep

/-- **No lost wake-up**: whatever the order of the steps, a refresher that has been woken and waits without a call,
with no commit about to call, has converged last to the nanosecond after the latest commit, or to the latest time
there is if that commit is at it.  The calls that were dropped are those that were made and not queued, and those
that were queued were taken but for the one that may be waiting. -/
theorem reached_committed {l : RefreshLoop} (hfresh : l.calls = .fresh) {x : Watch} (hsteps : (start l).Steps x) :
    (x.stage = .waiting → x.loop.calls.pending = false → x.announcing = false → x.woken = true →
      ∀ t, x.loop.committed = some t →
        ∃ target, x.reached = some target ∧ target.toInt = min (t.toInt + 1) (2 ^ 63 - 1)) ∧
      x.loop.calls.dropped + x.queued = x.fired ∧ x.queued = x.taken + x.loop.calls.pending.toNat := by
  have h := informed_steps hsteps (informed_start hfresh)
  refine ⟨fun hstage hnone hidle hwoken t ht => ?_, h.dropped, h.queued⟩
  refine ⟨Refresher.targetOf t, ?_, Refresher.toInt_targetOf t⟩
  rw [h.waiting hstage hnone hidle hwoken, ht]
  rfl

/-- A second commit whose call is dropped is reached all the same. -/
theorem reached_committed_dropped :
    let l := RefreshLoop.start (.ofWindow 1) .empty 60000
    l.calls = .fresh ∧ ∃ x, (start l).Steps x ∧ x.stage = .waiting ∧ x.loop.calls.pending = false ∧
      x.announcing = false ∧ x.woken = true ∧ x.loop.committed = some 9 ∧ x.fired = 2 ∧ x.queued = 1 ∧
      (∃ target, x.reached = some target ∧ target.toInt = min (Int64.toInt 9 + 1) (2 ^ 63 - 1)) ∧
      x.loop.calls.dropped + x.queued = x.fired ∧ x.queued = x.taken + x.loop.calls.pending.toNat := by
  intro l
  have hok : (l.refresher.converge l.store (Refresher.targetOf 9) false).1 = .ok true :=
    Refresher.converge_of_caughtUp (o := Refresher.idleOutcome (Refresher.targetOf 9)) (by decide +kernel) rfl false
  have htwice : (start l).Steps _ :=
    .tail (.tail (.tail (.single (.publish 5 rfl)) (.fire rfl)) (.publish 9 rfl)) (.fire rfl)
  have hsteps : (start l).Steps _ := .tail (.tail (.tail htwice (.take rfl rfl)) (.read rfl rfl)) (.converge rfl hok)
  obtain ⟨hreached, hcounts⟩ := reached_committed (l := l) rfl hsteps
  exact ⟨rfl, _, hsteps, rfl, rfl, rfl, rfl, rfl, rfl, rfl, hreached rfl rfl rfl rfl 9 rfl, hcounts⟩

/-- A loop whose views are all a day behind the latest time there is. -/
def lateLoop : RefreshLoop :=
  .start (.ofWindow Int64.maxValue)
    { Store.empty with watermarks := View.all.map fun v => (v, Int64.maxValue - 86400000000000) } 60000

/-- There is no nanosecond after a commit at the latest time, so the refresher stops at the commit itself. -/
theorem reached_latestTime :
    ∃ x, (start lateLoop).Steps x ∧ x.stage = .waiting ∧ x.loop.calls.pending = false ∧ x.announcing = false ∧
      x.woken = true ∧ x.loop.committed = some Int64.maxValue ∧
      ¬ ∃ target, x.reached = some target ∧ target.toInt = Int64.maxValue.toInt + 1 := by
  have hok : (lateLoop.refresher.converge lateLoop.store (Refresher.targetOf Int64.maxValue) false).1 = .ok true :=
    Refresher.converge_of_caughtUp (o := ⟨.incremental, 9, Int64.maxValue, true⟩) (by decide +kernel) rfl false
  have hsteps : (start lateLoop).Steps _ :=
    .tail (.tail (.tail (.tail (.single (.publish Int64.maxValue rfl)) (.fire rfl)) (.take rfl rfl)) (.read rfl rfl))
      (.converge rfl hok)
  refine ⟨_, hsteps, rfl, rfl, rfl, rfl, rfl, ?_⟩
  rintro ⟨target, htarget, hnext⟩
  have hlast : target = Refresher.targetOf Int64.maxValue := (Option.some.inj htarget).symm
  rw [hlast] at hnext
  exact absurd hnext (by decide +kernel)

end Watch

end PoolIndexer
