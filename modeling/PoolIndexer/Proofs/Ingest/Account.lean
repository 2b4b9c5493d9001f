import PoolIndexer.Proofs.Ingest.Pieces

/-!
# Proofs.Ingest.Account — what every history of a store keeps

* `Account`: a property of the rows in their order, the balances after them and the next height, that
  no recorded event, row of depths or block breaks.
* `Sealed`: rows that end in a block with the balances after it, so that the property holds of them.
* `World.Keeps`: the rows of the store are sealed, and the property holds of them together with the
  rows that the ingestor holds and the balances it has.
* `World.keeps_run`: all actions in any order keep this, so what is stored is always sealed.
-/

namespace PoolIndexer

/-- A property of rows, the balances after them and the height above them, kept by all that is
recorded from admitted events. -/
structure Account (admits : Recorder → Event × Metadata → Prop)
    (P : List Row → Balances → Int → Prop) : Prop where
  below : ∀ {rows balances next}, P rows balances next →
    ∀ r ∈ blockRows rows, ∀ h, r.blockHeight? = some h → h < next
  event : ∀ {r e m rows added next} {t : Totals}, admits r (e, m) → P rows t.balances next →
    e.rows r.natives m = .ok added →
    (t.applyAll (e.changes r.natives r.coinKeptBelow m.height)).fault = none →
    P (rows ++ added) (t.applyAll (e.changes r.natives r.coinKeptBelow m.height)).totals.balances next
  depth : ∀ {rows balances next pool d timestamp}, P rows balances next →
    P (rows ++ [DepthHistory.row pool d timestamp]) balances next
  block : ∀ {rows balances} {b : Block} {state}, P rows balances b.height.toInt →
    P (rows ++ [b.row state]) balances (b.height.toInt + 1)

/-- Nothing, or rows whose last one is a block with the totals after it. -/
def Sealed (P : List Row → Balances → Int → Prop) (rows : List Row) : Prop :=
  rows = [] ∨ ∃ front b state t, rows = front ++ [Block.row b (some state)] ∧
    Snapshot.write t = .ok state ∧ P rows t.balances (b.height.toInt + 1)

section

variable (admits : Recorder → Event × Metadata → Prop) (P : List Row → Balances → Int → Prop)
  (fed : Block → Prop)

/-- Every event that comes out of a block that may be fed is admitted. -/
def Ingestor.Admits (g : Ingestor) : Prop :=
  ∀ b, fed b → ∀ p ∈ (g.demux.run b).delivered, admits g.recorder p

/-- The property at a point within a block. -/
def Job.Keeps (g : Ingestor) (job : Job) : Prop :=
  match job.task with
  | .events rest =>
    g.books.inserter.Open ∧ P g.rows g.balances g.nextHeight.toInt ∧ ∀ p ∈ rest, admits g.recorder p
  | .depths _ _ _ | .ledger _ _ => g.books.inserter.Open ∧ P g.rows g.balances g.nextHeight.toInt
  | .commit stamp _ _ =>
    g.books.inserter.Closed ∧ g.books.inserter.block.ended ≠ 0 ∧
      P g.rows g.balances (g.nextHeight.toInt + 1) ∧
      ∀ s, stamp = some s → Snapshot.write g.books.totals = .ok s.state ∧
        ∃ front, g.rows = front ++ [job.block.row (some s.state)]

def World.Keeps : World → Prop
  | .down s => Sealed P s.rows
  | .idle g =>
    Sealed P g.store.rows ∧ g.Admits admits fed ∧ g.books.inserter.Closed ∧
      P g.rows g.balances g.nextHeight.toInt
  | .busy g job =>
    Sealed P g.store.rows ∧ g.Admits admits fed ∧ job.block.height = g.nextHeight ∧
      job.Keeps admits P g

end

section

variable {admits : Recorder → Event × Metadata → Prop} {P : List Row → Balances → Int → Prop}
  {fed : Block → Prop}

/-! ### The store -/

theorem World.Keeps.stored {w : World} (h : w.Keeps admits P fed) : Sealed P w.store.rows := by
  cases w with
  | down s => exact h
  | idle g => exact h.1
  | busy g job => exact h.1

theorem World.Keeps.withStore {w : World} {s : Store} (h : w.Keeps admits P fed)
    (hs : s.rows = w.store.rows) : (w.withStore s).Keeps admits P fed := by
  cases w with
  | down s' => exact show Sealed P s.rows from hs ▸ h
  | idle g =>
    have hrows : ({ g with store := s } : Ingestor).rows = g.rows := congrArg (· ++ _) hs
    obtain ⟨hsealed, hadmits, hclosed, hP⟩ := h
    exact ⟨show Sealed P s.rows from hs ▸ hsealed, hadmits, hclosed, hrows ▸ hP⟩
  | busy g job =>
    have hrows : ({ g with store := s } : Ingestor).rows = g.rows := congrArg (· ++ _) hs
    obtain ⟨hsealed, hadmits, hheight, hjob⟩ := h
    refine ⟨show Sealed P s.rows from hs ▸ hsealed, hadmits, hheight, ?_⟩
    unfold Job.Keeps at hjob ⊢
    rw [hrows]
    exact hjob

theorem World.Keeps.ready {w : World} (h : w.Keeps admits P fed) : w.Ready := by
  cases w with
  | down s => trivial
  | idle g => exact h.2.2.1
  | busy g job =>
    obtain ⟨b, batchEnd, demux, task⟩ := job
    obtain ⟨-, -, -, hjob⟩ := h
    cases task with
    | events rest => exact hjob.1
    | depths record written rest => exact hjob.1
    | ledger record depthRows => exact hjob.1
    | commit stamp record depthRows => exact ⟨hjob.1, hjob.2.1⟩

/-! ### A new start -/

theorem Sealed.latestCheckpoint (hP : Account admits P) {s : Store} (h : Sealed P s.rows)
    (hne : s.rows ≠ []) :
    ∃ front b state t, s.rows = front ++ [Block.row b (some state)] ∧
      s.latestCheckpoint = some (b.checkpoint state) ∧ Snapshot.write t = .ok state ∧
      P s.rows t.balances (b.height.toInt + 1) := by
  rcases h with hnil | ⟨front, b, state, t, hrows, hstate, hkeeps⟩
  · exact absurd hnil hne
  · refine ⟨front, b, state, t, hrows, Store.latestCheckpoint_eq hrows fun r hr h hh => ?_, hstate, hkeeps⟩
    have hmem : r ∈ blockRows s.rows := by
      rw [hrows, blockRows_append]
      exact List.mem_append_left _ hr
    exact Int.le_of_lt_add_one (hP.below hkeeps r hmem h hh)

theorem World.keeps_start (hP : Account admits P) {s : Store} {setup : Setup} (h : Sealed P s.rows)
    (hadmits : ∀ b, fed b → ∀ p ∈ (setup.demux.run b).delivered, admits setup.recorder p)
    (hfresh : P [] .empty setup.startHeight.toInt) : (World.start s setup).Keeps admits P fed := by
  unfold World.start
  by_cases hempty : s.rows = []
  · rw [Recovered.ofStore_eq_fresh hempty]
    refine ⟨h, hadmits, Inserter.closed_ofStrategy _, ?_⟩
    show P (s.rows ++ (Inserter.ofStrategy setup.strategy).pending) .empty setup.startHeight.toInt
    rw [hempty, Inserter.pending_ofStrategy]
    exact hfresh
  · obtain ⟨front, b, state, t, hrows, hlatest, hstate, hkeeps⟩ := h.latestCheckpoint hP hempty
    rw [Recovered.ofStore_eq hlatest hstate]
    cases hnext : Checked.add b.height 1 with
    | error o => exact h
    | ok next =>
      refine ⟨h, hadmits, Inserter.closed_ofStrategy _, ?_⟩
      show P (s.rows ++ (Inserter.ofStrategy setup.strategy).pending) t.balances next.toInt
      rw [Inserter.pending_ofStrategy, List.append_nil, Checked.add_eq_ok_iff.1 hnext]
      exact hkeeps

/-! ### The pieces of a block -/

namespace Ingestor

theorem keeps_offer {g : Ingestor} {b : Block} (hb : fed b) (batchEnd : Bool)
    (h : (World.idle g).Keeps admits P fed) : (g.offer b batchEnd).Keeps admits P fed := by
  obtain ⟨hsealed, hadmits, hclosed, hP⟩ := h
  rcases offer_cases hclosed b batchEnd with hdown | ⟨i, log, hheight, hopen, hrows, hbusy⟩
  · rw [hdown]
    exact hsealed
  · rw [hbusy]
    exact ⟨hsealed, hadmits, hheight, hopen, hrows ▸ hP, hadmits b hb⟩

/-- What a block with a stamp leaves in the store. -/
theorem sealed_flushed {g : Ingestor} {b : Block} {s : Stamp} (hheight : b.height = g.nextHeight)
    (hkeeps : P g.rows g.balances (g.nextHeight.toInt + 1))
    (hstamp : Snapshot.write g.books.totals = .ok s.state ∧
      ∃ front, g.rows = front ++ [b.row (some s.state)]) : Sealed P g.flushed.rows := by
  obtain ⟨hstate, front, hrows⟩ := hstamp
  refine .inr ⟨front, b, s.state, g.books.totals, hrows, hstate, ?_⟩
  show P g.rows g.balances (b.height.toInt + 1)
  rw [hheight]
  exact hkeeps

end Ingestor

/-- The property at one point of a block carries over to the next. -/
theorem World.keeps_worked (hP : Account admits P) {w v : World} (hworked : w.Worked v)
    (h : w.Keeps admits P fed) : v.Keeps admits P fed := by
  cases hworked with
  | down s => exact h
  | idle g => exact h
  | gone g job constants => exact h.1
  | @event g job e m rest books rows hopen hrows hadded hfault htotals =>
    obtain ⟨hsealed, hadmits, hheight, -, hkeeps, hrest⟩ := h
    obtain ⟨hevent, hrest⟩ := List.forall_mem_cons.1 hrest
    refine ⟨hsealed, hadmits, hheight, hopen, ?_, hrest⟩
    show P ({ g with books } : Ingestor).rows books.totals.balances g.nextHeight.toInt
    rw [hadded, htotals]
    exact hP.event hevent hkeeps hrows hfault
  | @leaveOut g job p rest books hopen hrows htotals =>
    obtain ⟨hsealed, hadmits, hheight, -, hkeeps, hrest⟩ := h
    refine ⟨hsealed, hadmits, hheight, hopen, ?_, (List.forall_mem_cons.1 hrest).2⟩
    show P ({ g with books } : Ingestor).rows books.totals.balances g.nextHeight.toInt
    rw [hrows, htotals]
    exact hkeeps
  | eventsDone g job => exact ⟨h.1, h.2.1, h.2.2.1, h.2.2.2.1, h.2.2.2.2.1⟩
  | @depthRow g job record written pool rest i hopen hmoved hadded =>
    obtain ⟨hsealed, hadmits, hheight, -, hkeeps⟩ := h
    refine ⟨hsealed, hadmits, hheight, hopen, ?_⟩
    show P (g.withInserter i).rows g.balances g.nextHeight.toInt
    rw [hadded]
    exact hP.depth hkeeps
  | passOver hopen hrows =>
    obtain ⟨hsealed, hadmits, hheight, -, hkeeps⟩ := h
    exact ⟨hsealed, hadmits, hheight, hopen, hrows ▸ hkeeps⟩
  | depthsDone => exact h
  | @ledger g job record depthRows stamp i hclosed hended hadded hstate =>
    obtain ⟨hsealed, hadmits, hheight, -, hkeeps⟩ := h
    have hblock : job.block.height = g.nextHeight := hheight
    refine ⟨hsealed, hadmits, hheight, hclosed, hended, ?_, fun s hs => ⟨hstate s hs, g.rows, ?_⟩⟩
    · show P (g.withInserter i).rows g.balances (g.nextHeight.toInt + 1)
      rw [← hblock] at hkeeps ⊢
      rw [hadded]
      exact hP.block hkeeps
    · rw [hadded, hs]
      rfl
  | lastBlock g job s record depthRows =>
    obtain ⟨-, -, hheight, -, -, hkeeps, hstamp⟩ := h
    exact Ingestor.sealed_flushed hheight hkeeps (hstamp s rfl)
  | @commit g g' job stamp record depthRows hstore hrows hclosed hnext htotals hdepths hdemux hrecorder =>
    obtain ⟨hsealed, hadmits, hheight, -, -, hkeeps, hstamp⟩ := h
    refine ⟨?_, ?_, hclosed, ?_⟩
    · rw [hstore]
      cases stamp with
      | none => exact hsealed
      | some s => exact Ingestor.sealed_flushed hheight hkeeps (hstamp s rfl)
    · unfold Ingestor.Admits
      rw [hdemux, hrecorder]
      exact hadmits
    · unfold Ingestor.balances
      rw [hrows, htotals, hnext]
      exact hkeeps

/-! ### Any order of actions -/

/-- What an action brings in: blocks that may be fed, and ingestors that may begin and admit their events. -/
def Action.Allowed (admits : Recorder → Event × Metadata → Prop) (P : List Row → Balances → Int → Prop)
    (fed : Block → Prop) : Action → Prop
  | .start setup =>
    P [] .empty setup.startHeight.toInt ∧
      ∀ b, fed b → ∀ p ∈ (setup.demux.run b).delivered, admits setup.recorder p
  | .process b _ | .offer b _ => fed b
  | .disturb _ | .work | .drop => True

namespace World

theorem keeps_works (hP : Account admits P) {w w' : World} (hworks : w.Works w')
    (h : w.Keeps admits P fed) : w'.Keeps admits P fed := by
  induction hworks with
  | refl => exact h
  | tail _ hstep ih => exact hstep ▸ keeps_worked hP (worked_work ih.ready) ih

theorem keeps_step (hP : Account admits P) {w : World} {a : Action} (ha : a.Allowed admits P fed)
    (h : w.Keeps admits P fed) : (w.step a).Keeps admits P fed := by
  cases a with
  | disturb s => exact h.withStore rfl
  | start setup => exact keeps_start hP h.stored ha.2 ha.1
  | work => exact keeps_worked hP (worked_work h.ready) h
  | drop => exact h.stored
  | offer b batchEnd =>
    cases w with
    | idle g => exact Ingestor.keeps_offer ha batchEnd h
    | down s => exact h
    | busy g job => exact h
  | process b batchEnd =>
    cases w with
    | idle g => exact keeps_works hP (g.works_process b batchEnd) (Ingestor.keeps_offer ha batchEnd h)
    | down s => exact h
    | busy g job => exact h

/-- **Histories**: whatever happens, in whatever order, the stored rows stay sealed. -/
theorem keeps_run (hP : Account admits P) (actions : List Action)
    (hactions : ∀ a ∈ actions, a.Allowed admits P fed) {w : World} (h : w.Keeps admits P fed) :
    (w.run actions).Keeps admits P fed := by
  induction actions generalizing w with
  | nil => exact h
  | cons a rest ih =>
    obtain ⟨ha, hrest⟩ := List.forall_mem_cons.1 hactions
    exact ih hrest (keeps_step hP ha h)

end World

end

end PoolIndexer
