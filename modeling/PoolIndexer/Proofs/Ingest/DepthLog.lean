import PoolIndexer.Proofs.Ingest.Account
import PoolIndexer.Proofs.Ingest.History

/-!
# Proofs.Ingest.DepthLog — the rows of depths against the totals behind them

* `World.Visits`: the worlds that a history passes through, those within a block among them.
* `World.Wrote`: the moment at which a block has written its row of the ledger, when its events and
  its depths are all behind it.
* `Chronicle`: rows in which the depths of each pool move with every row, once in a block, and in which
  every row of the ledger has its moment.
* `depthRows_exact`: where no row of depths is refused, the last row of a pool has the totals of the
  pool after each stored block.  Restarts, lost blocks and failed commits do not matter.
-/

namespace PoolIndexer

namespace World

/-! ### The worlds of a history -/

/-- Where an action leads, and all points within a block that is processed in one go. -/
def Through (w : World) (a : Action) (v : World) : Prop :=
  v = w.step a ∨ ∃ g b batchEnd, w = .idle g ∧ a = .process b batchEnd ∧ (g.offer b batchEnd).Works v

def Visits (w : World) (actions : List Action) (v : World) : Prop :=
  ∃ before a after, actions = before ++ a :: after ∧ (w.run before).Through a v

theorem run_append_singleton (w : World) (actions : List Action) (a : Action) :
    w.run (actions ++ [a]) = (w.run actions).step a := by
  unfold run
  rw [List.foldl_append]
  rfl

/-- What the points of an action have if the world before it has it, all visited worlds have. -/
theorem visits_induction {I : World → Prop} {w : World} (actions : List Action) (hw : I w)
    (hthrough : ∀ before a after, actions = before ++ a :: after → I (w.run before) →
      ∀ v, (w.run before).Through a v → I v) :
    (∀ v, w.Visits actions v → I v) ∧ I (w.run actions) := by
  have hruns : ∀ before, before <+: actions → I (w.run before) := by
    intro before
    induction before using List.reverseRecOn with
    | nil => exact fun _ => hw
    | append_singleton before a ih =>
      rintro ⟨after, hafter⟩
      have hsplit : actions = before ++ a :: after := by
        rw [← hafter, List.append_assoc]
        rfl
      rw [run_append_singleton]
      exact hthrough before a after hsplit (ih ⟨a :: after, hsplit.symm⟩) _ (.inl rfl)
  refine ⟨?_, hruns actions (List.prefix_refl _)⟩
  rintro v ⟨before, a, after, hsplit, hv⟩
  exact hthrough before a after hsplit (hruns before ⟨a :: after, hsplit.symm⟩) v hv

/-- The block has written its row of the ledger, and its commit is to come. -/
def Wrote (V : World → Prop) (g : Ingestor) (b : Block) : Prop :=
  ∃ batchEnd demux stamp record depthRows,
    V (.busy g ⟨b, batchEnd, demux, .commit stamp record depthRows⟩)

end World

/-! ### Rows with their moments -/

structure Chronicle (V : World → Prop) (rows : List Row) : Prop where
  minimal : ∀ pool, Minimal pool rows
  written : ∀ front r, front ++ [r] <+: rows → r.table = "block_log" →
    ∃ g b state, World.Wrote V g b ∧ r = Block.row b state ∧ g.rows = front ++ [r]

section

variable {V : World → Prop} {rows : List Row}

theorem Chronicle.nil (V : World → Prop) : Chronicle V [] := by
  refine ⟨Minimal.nil, fun front r hfront _ => ?_⟩
  have hmem := hfront.subset (List.mem_append_right front (List.mem_singleton_self r))
  cases hmem

theorem Chronicle.of_front {front : List Row} (h : Chronicle V rows) (hfront : front <+: rows) :
    Chronicle V front :=
  ⟨fun pool => (h.minimal pool).of_front hfront, fun xs r hxs => h.written xs r (hxs.trans hfront)⟩

/-- Rows that are not of the ledger have no moment of their own. -/
theorem Chronicle.append {added : List Row} (h : Chronicle V rows)
    (hminimal : ∀ pool, Minimal pool (rows ++ added)) (hadded : blockRows added = []) :
    Chronicle V (rows ++ added) := by
  refine ⟨hminimal, fun front r hfront htable => h.written front r ?_ htable⟩
  rcases List.prefix_or_prefix_of_prefix hfront (List.prefix_append rows added) with hshort | hlong
  · exact hshort
  · rcases List.prefix_concat_iff.1 hlong with heq | ⟨more, hmore⟩
    · exact heq ▸ List.prefix_refl _
    · -- the row is one of those added
      have hmem : r ∈ added := by
        rw [← hmore, List.append_assoc] at hfront
        have hrest := (List.prefix_append_right_inj rows).1 hfront
        exact hrest.subset (List.mem_append_right more (List.mem_singleton_self r))
      have hblock : r ∈ blockRows added := List.mem_filter.2 ⟨hmem, decide_eq_true htable⟩
      rw [hadded] at hblock
      cases hblock

theorem Chronicle.append_block {g : Ingestor} {b : Block} {state : Option (List UInt8)} (h : Chronicle V rows)
    (hwrote : World.Wrote V g b) (hrows : g.rows = rows ++ [b.row state]) : Chronicle V g.rows := by
  rw [hrows]
  refine ⟨fun pool => (h.minimal pool).append_block b state, fun front r hfront htable => ?_⟩
  rcases List.prefix_concat_iff.1 hfront with heq | hshort
  · obtain ⟨rfl, hr⟩ := List.append_inj' heq rfl
    cases hr
    exact ⟨g, b, state, hwrote, rfl, hrows⟩
  · exact h.written front r hshort htable

/-! ### Rows to begin from -/

/-- If the last row is a block with totals, they are the depths that the rows end with. -/
def Anchored (rows : List Row) : Prop :=
  ∀ front b state t, rows = front ++ [Block.row b (some state)] → Snapshot.write t = .ok state →
    ∀ pool, lastDepths .zero pool rows = t.get pool

theorem Anchored.nil : Anchored [] := by
  intro front b state t h
  cases front <;> cases h

theorem anchored_of_block {front : List Row} {b : Block} {state : List UInt8} {t : Totals}
    (hrows : rows = front ++ [b.row (some state)]) (hstate : Snapshot.write t = .ok state)
    (hlast : ∀ pool, lastDepths .zero pool rows = t.get pool) : Anchored rows := by
  intro front' b' state' t' hrows' hstate' pool
  obtain ⟨-, hrow⟩ := List.append_inj' (hrows.symm.trans hrows') rfl
  have hsame : state = state' := by
    simp only [Block.row, Ingestor.ledgerValues, List.cons.injEq, Row.mk.injEq, Value.bytes.injEq, true_and,
      and_true] at hrow
    exact hrow.2.2.2
  rw [hlast]
  exact Snapshot.get_eq_of_write hstate (hsame ▸ hstate') pool

/-! ### The invariant -/

/-- The pools whose turn is to come have no row in this block. -/
def Task.Untouched (g : Ingestor) : Task → Prop
  | .depths _ _ rest => rest.Nodup ∧ ∀ pool ∈ rest, Fresh pool g.rows
  | .ledger _ _ => True
  | .events _ | .commit _ _ _ => ∀ pool, Fresh pool g.rows

def World.Tells (V : World → Prop) : World → Prop
  | .down s => Chronicle V s.rows ∧ Anchored s.rows
  | .idle g => Chronicle V g.rows ∧ Anchored g.store.rows ∧ ∀ pool, Fresh pool g.rows
  | .busy g job => Chronicle V g.rows ∧ Anchored g.store.rows ∧ job.task.Untouched g

/-- Rows below the next height. -/
def Below (rows : List Row) (_ : Balances) (next : Int) : Prop :=
  ∀ r ∈ blockRows rows, ∀ h, r.blockHeight? = some h → h < next

theorem account_below : Account (fun _ _ => True) Below where
  below := fun h => h
  event := by
    intro r e m rows added next t _ h hadded _
    unfold Below at h ⊢
    rw [blockRows_append, Event.blockRows_rows hadded, List.append_nil]
    exact h
  depth := by
    intro rows balances next pool d timestamp h
    unfold Below at h ⊢
    rw [blockRows_append, blockRows_depthRow, List.append_nil]
    exact h
  block := by
    intro rows balances b state h r hr height hheight
    rw [blockRows_append, blockRows_row] at hr
    rcases List.mem_append.1 hr with hr | hr
    · have hlt := h r hr height hheight
      omega
    · rw [List.mem_singleton.1 hr, Block.blockHeight?_row] at hheight
      cases hheight
      omega

structure World.Told (V : World → Prop) (w : World) : Prop where
  keeps : w.Keeps (fun _ _ => True) Below (fun _ => True)
  recalls : w.Recalls (fun _ => .zero) []
  caughtUp : w.CaughtUp
  tells : w.Tells V

/-- From an empty store on, what is remembered is what the rows give. -/
theorem Ingestor.Recalls.lastDepths_eq {g : Ingestor} (h : g.Recalls (fun _ => .zero) []) (pool : String) :
    lastDepths .zero pool g.rows = g.depths.last.get pool := by
  obtain ⟨since, hsince, hlast⟩ := h.since
  rw [hsince]
  exact hlast pool

namespace World

theorem Tells.stored {w : World} (h : w.Tells V) : (World.down w.store).Tells V := by
  cases w with
  | down s => exact h
  | idle g => exact ⟨h.1.of_front (List.prefix_append _ _), h.2.1⟩
  | busy g job => exact ⟨h.1.of_front (List.prefix_append _ _), h.2.1⟩

theorem Tells.withStore {w : World} {s : Store} (h : w.Tells V) (hs : s.rows = w.store.rows) :
    (w.withStore s).Tells V := by
  cases w with
  | down s' =>
    have hrows : s.rows = s'.rows := hs
    exact ⟨hrows ▸ h.1, hrows ▸ h.2⟩
  | idle g =>
    have hrows : ({ g with store := s } : Ingestor).rows = g.rows := congrArg (· ++ _) hs
    have hstored : s.rows = g.store.rows := hs
    exact ⟨hrows ▸ h.1, show Anchored s.rows from hstored ▸ h.2.1, fun pool => hrows ▸ h.2.2 pool⟩
  | busy g job =>
    have hrows : ({ g with store := s } : Ingestor).rows = g.rows := congrArg (· ++ _) hs
    have hstored : s.rows = g.store.rows := hs
    refine ⟨hrows ▸ h.1, show Anchored s.rows from hstored ▸ h.2.1, ?_⟩
    obtain ⟨-, -, htask⟩ := h
    unfold Task.Untouched at htask ⊢
    rw [hrows]
    exact htask

theorem tells_offer {g : Ingestor} (hclosed : g.books.inserter.Closed) (h : (World.idle g).Tells V) (b : Block)
    (batchEnd : Bool) : (g.offer b batchEnd).Tells V := by
  rcases Ingestor.offer_cases hclosed b batchEnd with hdown | ⟨i, log, -, -, hrows, hbusy⟩
  · rw [hdown]
    exact h.stored
  · rw [hbusy]
    exact ⟨hrows ▸ h.1, h.2.1, fun pool => hrows ▸ h.2.2 pool⟩

/-! ### The pieces of a block -/

section

variable {g : Ingestor} {job : Job}

theorem tells_depthRow {record : RecordStats} {written : Nat} {pool : String} {rest : List String}
    {i : Inserter} (h : (World.busy g { job with task := .depths record written (pool :: rest) }).Told V)
    (hmoved : g.books.totals.get pool ≠ g.depths.last.get pool)
    (hadded : (g.withInserter i).rows =
      g.rows ++ [DepthHistory.row pool (g.books.totals.get pool) job.block.nanos]) :
    Chronicle V (g.withInserter i).rows ∧ rest.Nodup ∧ ∀ p ∈ rest, Fresh p (g.withInserter i).rows := by
  obtain ⟨hchronicle, -, hnodup, hfresh⟩ := h.tells
  obtain ⟨hpool, hrest⟩ := List.nodup_cons.1 hnodup
  have hother : ∀ p, p ≠ pool →
      marks p [DepthHistory.row pool (g.books.totals.get pool) job.block.nanos] = [] := by
    intro p hp
    rw [marks_depthRow, if_neg hp.symm]
  have hminimal : ∀ p, Minimal p
      (g.rows ++ [DepthHistory.row pool (g.books.totals.get pool) job.block.nanos]) := by
    intro p
    by_cases hp : p = pool
    · subst hp
      refine (hchronicle.minimal p).append_depthRow job.block.nanos (hfresh p List.mem_cons_self) ?_
      rw [h.recalls.1.lastDepths_eq]
      exact hmoved
    · exact (hchronicle.minimal p).append_of_marks (hother p hp)
  rw [hadded]
  refine ⟨hchronicle.append hminimal (blockRows_depthRow _ _ _), hrest, fun p hp => ?_⟩
  have hne : p ≠ pool := ne_of_mem_of_not_mem hp hpool
  exact (hfresh p (List.mem_cons_of_mem _ hp)).append_of_marks (hother p hne)

/-- A block with a stamp leaves rows to begin from. -/
theorem anchored_flushed {s : Ingestor.Stamp} {record : RecordStats} {depthRows : Nat}
    (h : (World.busy g { job with task := .commit (some s) record depthRows }).Told V) :
    Anchored g.flushed.rows := by
  obtain ⟨-, -, -, -, -, -, hstamp⟩ := h.keeps
  obtain ⟨hstate, front, hrows⟩ := hstamp s rfl
  refine anchored_of_block hrows hstate fun pool => ?_
  exact (h.recalls.1.lastDepths_eq pool).trans (h.caughtUp pool)

end

theorem tells_worked {w v : World} (hworked : w.Worked v) (hV : V v) (h : w.Told V) : v.Tells V := by
  cases hworked with
  | down s => exact h.tells
  | idle g => exact h.tells
  | gone g job constants => exact h.tells.stored
  | event hopen hrows hadded =>
    obtain ⟨hchronicle, hanchored, hfresh⟩ := h.tells
    have hmarks := marks_of_events (Event.isTable_rows hrows)
    refine ⟨?_, hanchored, fun pool => ?_⟩
    · rw [hadded]
      exact hchronicle.append (fun pool => (hchronicle.minimal pool).append_of_marks (hmarks pool))
        (Event.blockRows_rows hrows)
    · rw [hadded]
      exact (hfresh pool).append_of_marks (hmarks pool)
  | leaveOut hopen hrows =>
    obtain ⟨hchronicle, hanchored, hfresh⟩ := h.tells
    exact ⟨hrows ▸ hchronicle, hanchored, fun pool => hrows ▸ hfresh pool⟩
  | eventsDone g job =>
    obtain ⟨hchronicle, hanchored, hfresh⟩ := h.tells
    exact ⟨hchronicle, hanchored, Totals.nodup_pools _, fun pool _ => hfresh pool⟩
  | depthRow hopen hmoved hadded =>
    obtain ⟨hchronicle, hrest⟩ := tells_depthRow h hmoved hadded
    exact ⟨hchronicle, h.tells.2.1, hrest⟩
  | passOver hopen hrows =>
    obtain ⟨hchronicle, hanchored, hnodup, hfresh⟩ := h.tells
    refine ⟨hrows ▸ hchronicle, hanchored, (List.nodup_cons.1 hnodup).2, fun p hp => ?_⟩
    rw [hrows]
    exact hfresh p (List.mem_cons_of_mem _ hp)
  | depthsDone => exact ⟨h.tells.1, h.tells.2.1, trivial⟩
  | ledger hclosed hended hadded =>
    obtain ⟨hchronicle, hanchored, -⟩ := h.tells
    refine ⟨hchronicle.append_block ⟨_, _, _, _, _, hV⟩ hadded, hanchored, fun pool => ?_⟩
    rw [hadded]
    exact Fresh.append_block pool _ _ _
  | lastBlock => exact ⟨h.tells.1, anchored_flushed h⟩
  | @commit g g' job stamp record depthRows hstore hrows =>
    obtain ⟨hchronicle, hanchored, hfresh⟩ := h.tells
    refine ⟨hrows ▸ hchronicle, ?_, fun pool => hrows ▸ hfresh pool⟩
    rw [hstore]
    cases stamp with
    | none => exact hanchored
    | some s => exact anchored_flushed h

/-! ### Any order of actions -/

theorem told_work {w : World} (hV : V w.work) (hrefuses : ¬ w.RefusesDepthRow) (h : w.Told V) :
    w.work.Told V := by
  have hworked := worked_work h.recalls.ready
  exact ⟨keeps_worked account_below hworked h.keeps, recalls_worked hworked h.recalls,
    caughtUp_worked hworked h.recalls hrefuses h.caughtUp, tells_worked hworked hV h⟩

theorem told_offer {g : Ingestor} (h : (World.idle g).Told V) (b : Block) (batchEnd : Bool) :
    (g.offer b batchEnd).Told V :=
  ⟨Ingestor.keeps_offer trivial batchEnd h.keeps, recalls_offer h.recalls b batchEnd,
    caughtUp_offer h.recalls.2 b batchEnd, tells_offer h.recalls.2 h.tells b batchEnd⟩

theorem Told.stored {w : World} (h : w.Told V) : (World.down w.store).Told V :=
  ⟨h.keeps.stored, trivial, trivial, h.tells.stored⟩

theorem told_start {s : Store} (h : (World.down s).Told V) (setup : Setup) : (World.start s setup).Told V := by
  have hkeeps : (World.start s setup).Keeps (fun _ _ => True) Below (fun _ => True) := by
    refine keeps_start account_below h.keeps (fun _ _ _ _ => trivial) fun r hr => ?_
    cases hr
  obtain ⟨hchronicle, hanchored⟩ := h.tells
  have hsealed : Sealed Below s.rows := h.keeps
  by_cases hempty : s.rows = []
  · have hrows : (setup.ingestor s (.fresh setup.startHeight)).rows = [] := by
      show s.rows ++ (Inserter.ofStrategy setup.strategy).pending = []
      rw [hempty, Inserter.pending_ofStrategy]
      rfl
    unfold World.start at hkeeps ⊢
    rw [Recovered.ofStore_eq_fresh hempty] at hkeeps ⊢
    refine ⟨hkeeps, ⟨⟨⟨[], hrows, fun _ => rfl⟩, fun _ _ => rfl⟩, Inserter.closed_ofStrategy _⟩,
      fun _ => rfl, ?_, hanchored, fun pool => ?_⟩
    · rw [hrows]
      exact Chronicle.nil V
    · rw [hrows]
      exact Fresh.nil pool
  · obtain ⟨front, b, state, t, hlastRow, hlatest, hstate, -⟩ :=
      hsealed.latestCheckpoint account_below hempty
    unfold World.start at hkeeps ⊢
    rw [Recovered.ofStore_eq hlatest hstate] at hkeeps ⊢
    cases hnext : Checked.add b.height 1 with
    | error o => exact h
    | ok next =>
      rw [hnext] at hkeeps
      dsimp only at hkeeps ⊢
      have hrows : (setup.ingestor s ⟨{ t with overflows := 0 }, next,
          some ⟨b.height, b.nanos, b.hash, { t with overflows := 0 }⟩⟩).rows = s.rows := by
        show s.rows ++ (Inserter.ofStrategy setup.strategy).pending = s.rows
        rw [Inserter.pending_ofStrategy, List.append_nil]
      refine ⟨hkeeps, ⟨⟨⟨s.rows, hrows, fun pool => hanchored front b state t hlastRow hstate pool⟩,
        fun pool hpool => Totals.get_eq_zero hpool⟩, Inserter.closed_ofStrategy _⟩, fun _ => rfl, ?_, hanchored,
        fun pool => ?_⟩
      · rw [hrows]
        exact hchronicle
      · rw [hrows, hlastRow]
        exact Fresh.append_block pool front b (some state)

theorem told_works {w v : World} (hworks : w.Works v)
    (hall : ∀ u, w.Works u → V u ∧ ¬ u.RefusesDepthRow) (h : w.Told V) : v.Told V := by
  induction hworks with
  | refl => exact h
  | tail hbefore hstep ih =>
    have hV := (hall _ (hbefore.tail hstep)).1
    rw [hstep] at hV ⊢
    exact told_work hV (hall _ hbefore).2 ih

theorem told_through {w : World} {a : Action} (h : w.Told V) (hrefuses : ¬ w.RefusesDepthRow)
    (hall : ∀ v, w.Through a v → V v ∧ ¬ v.RefusesDepthRow) {v : World} (hv : w.Through a v) : v.Told V := by
  rcases hv with rfl | ⟨g, b, batchEnd, rfl, rfl, hworks⟩
  · cases a with
    | disturb s =>
      exact ⟨h.keeps.withStore rfl, h.recalls.withStore rfl, h.caughtUp.withStore _, h.tells.withStore rfl⟩
    | start setup => exact told_start h.stored setup
    | work => exact told_work (hall _ (.inl rfl)).1 hrefuses h
    | drop => exact h.stored
    | offer b batchEnd =>
      cases w with
      | idle g => exact told_offer h b batchEnd
      | down s => exact h
      | busy g job => exact h
    | process b batchEnd =>
      cases w with
      | idle g =>
        exact told_works (g.works_process b batchEnd)
          (fun u hu => hall u (.inr ⟨g, b, batchEnd, rfl, rfl, hu⟩)) (told_offer h b batchEnd)
      | down s => exact h
      | busy g job => exact h
  · exact told_works hworks (fun u hu => hall u (.inr ⟨g, b, batchEnd, rfl, rfl, hu⟩)) (told_offer h b batchEnd)

/-- All that is visited is told, as long as no row of depths is refused. -/
theorem told_visits {actions : List Action}
    (hrefuses : ∀ v, (World.down .empty).Visits actions v → ¬ v.RefusesDepthRow) :
    (∀ v, (World.down .empty).Visits actions v → v.Told ((World.down .empty).Visits actions)) ∧
      ((World.down .empty).run actions).Told ((World.down .empty).Visits actions) := by
  have hempty : (World.down .empty).Told ((World.down .empty).Visits actions) :=
    ⟨.inl rfl, trivial, trivial, Chronicle.nil _, Anchored.nil⟩
  have hthrough : ∀ before a after, actions = before ++ a :: after →
      ((World.down .empty).run before).Told ((World.down .empty).Visits actions) ∧
        ¬ ((World.down .empty).run before).RefusesDepthRow →
      ∀ v, ((World.down .empty).run before).Through a v →
        v.Told ((World.down .empty).Visits actions) ∧ ¬ v.RefusesDepthRow := by
    rintro before a after hsplit ⟨htold, hcalm⟩ v hv
    have hvisits : ∀ u, ((World.down .empty).run before).Through a u →
        (World.down .empty).Visits actions u := fun u hu => ⟨before, a, after, hsplit, hu⟩
    exact ⟨told_through htold hcalm (fun u hu => ⟨hvisits u hu, hrefuses u (hvisits u hu)⟩) hv,
      hrefuses v (hvisits v hv)⟩
  obtain ⟨hvisits, hrun⟩ := visits_induction
    (I := fun v => v.Told ((World.down .empty).Visits actions) ∧ ¬ v.RefusesDepthRow) actions
    ⟨hempty, id⟩ hthrough
  exact ⟨fun v hv => (hvisits v hv).1, hrun.1⟩

/-! ### Where no row is refused -/

theorem rejectedTables_works {w v : World} (hworks : w.Works v)
    (h : w.Keeps (fun _ _ => True) Below (fun _ => True)) :
    v.store.rejectedTables = w.store.rejectedTables := by
  induction hworks with
  | refl => rfl
  | tail hbefore hstep ih =>
    rw [hstep, rejectedTables_worked (worked_work (keeps_works account_below hbefore h).ready)]
    exact ih

/-- Only what disturbs the store changes which tables reject rows. -/
theorem rejectedTables_step {w : World} (h : w.Keeps (fun _ _ => True) Below (fun _ => True)) {a : Action}
    (ha : ∀ s, a ≠ .disturb s) : (w.step a).store.rejectedTables = w.store.rejectedTables := by
  cases a with
  | disturb s => exact absurd rfl (ha s)
  | start setup =>
    show (World.start w.store setup).store.rejectedTables = _
    unfold World.start
    split <;> rfl
  | work => exact rejectedTables_worked (worked_work h.ready)
  | drop => rfl
  | offer b batchEnd =>
    cases w with
    | idle g => exact rejectedTables_offer h.2.2.1 b batchEnd
    | down s => rfl
    | busy g job => rfl
  | process b batchEnd =>
    cases w with
    | idle g =>
      have hworks := rejectedTables_works (g.works_process b batchEnd)
        (Ingestor.keeps_offer trivial batchEnd h)
      exact hworks.trans (rejectedTables_offer h.2.2.1 b batchEnd)
    | down s => rfl
    | busy g job => rfl

/-- If the table of depths never rejects rows, none is refused. -/
theorem visits_not_refuses (actions : List Action)
    (hactions : ∀ s, Action.disturb s ∈ actions → "block_pool_depths" ∉ s.rejectedTables) :
    ∀ v, (World.down .empty).Visits actions v → ¬ v.RefusesDepthRow := by
  have hthrough : ∀ before a after, actions = before ++ a :: after →
      ((World.down .empty).run before).Keeps (fun _ _ => True) Below (fun _ => True) ∧
        "block_pool_depths" ∉ ((World.down .empty).run before).store.rejectedTables →
      ∀ v, ((World.down .empty).run before).Through a v →
        v.Keeps (fun _ _ => True) Below (fun _ => True) ∧ "block_pool_depths" ∉ v.store.rejectedTables := by
    rintro before a after hsplit ⟨hkeeps, htaken⟩ v (rfl | ⟨g, b, batchEnd, hg, rfl, hworks⟩)
    · have hallowed : a.Allowed (fun _ _ => True) Below (fun _ => True) := by
        cases a with
        | start setup =>
          refine ⟨fun r hr => ?_, fun _ _ _ _ => trivial⟩
          cases hr
        | _ => trivial
      refine ⟨keeps_step account_below hallowed hkeeps, ?_⟩
      by_cases hdisturb : ∃ s, a = .disturb s
      · obtain ⟨s, rfl⟩ := hdisturb
        have hs := hactions s (hsplit ▸ List.mem_append_right _ List.mem_cons_self)
        cases (World.down .empty).run before <;> exact hs
      · rw [rejectedTables_step hkeeps fun s hs => hdisturb ⟨s, hs⟩]
        exact htaken
    · rw [hg] at hkeeps htaken
      have hoffer : (g.offer b batchEnd).Keeps (fun _ _ => True) Below (fun _ => True) :=
        Ingestor.keeps_offer trivial batchEnd hkeeps
      refine ⟨keeps_works account_below hworks hoffer, ?_⟩
      rw [rejectedTables_works hworks hoffer, rejectedTables_offer hkeeps.2.2.1]
      exact htaken
  obtain ⟨hvisits, -⟩ := visits_induction
    (I := fun v => v.Keeps (fun _ _ => True) Below (fun _ => True) ∧
      "block_pool_depths" ∉ v.store.rejectedTables) (w := .down .empty) actions
    ⟨.inl rfl, List.not_mem_nil⟩ hthrough
  exact fun v hv => not_refuses_of_taken (hvisits v hv).1.ready (hvisits v hv).2

/-! ### Exactness -/

/-- **Depth rows**: over any history in which no row of depths is refused, the last row of each pool has
the totals of the pool at the moment a block is written, and every stored block has had that moment with
just the rows before it.  In one block a pool has one row at most, and two rows in succession differ. -/
theorem depthRows_exact (actions : List Action)
    (hrefuses : ∀ v, (World.down .empty).Visits actions v → ¬ v.RefusesDepthRow) :
    let s := ((World.down .empty).run actions).store
    (∀ g b, Wrote ((World.down .empty).Visits actions) g b →
      ∀ pool, lastDepths .zero pool g.rows = g.books.totals.get pool) ∧
    (∀ front r back, s.rows = front ++ r :: back → r.table = "block_log" →
      ∃ g b state, Wrote ((World.down .empty).Visits actions) g b ∧ r = Block.row b state ∧
        g.rows = front ++ [r] ∧ ∀ pool, lastDepths .zero pool (front ++ [r]) = g.books.totals.get pool) ∧
    (∀ pool part, part <:+: s.rows → blockRows part = [] → (depthsOf pool part).length ≤ 1) ∧
    ∀ pool, (depthsOf pool s.rows).IsChain (· ≠ ·) := by
  intro s
  obtain ⟨hvisits, hrun⟩ := told_visits hrefuses
  obtain ⟨hchronicle, -⟩ : Chronicle _ s.rows ∧ Anchored s.rows := hrun.tells.stored
  have hmoment : ∀ g b, Wrote ((World.down .empty).Visits actions) g b →
      ∀ pool, lastDepths .zero pool g.rows = g.books.totals.get pool := by
    rintro g b ⟨batchEnd, demux, stamp, record, depthRows, hv⟩ pool
    have htold := hvisits _ hv
    exact (htold.recalls.1.lastDepths_eq pool).trans (htold.caughtUp pool)
  refine ⟨hmoment, fun front r back hrows htable => ?_, fun pool part hpart hblocks => ?_, fun pool => ?_⟩
  · have hfront : front ++ [r] <+: s.rows := ⟨back, by rw [hrows, List.append_assoc]; rfl⟩
    obtain ⟨g, b, state, hwrote, hr, hg⟩ := hchronicle.written front r hfront htable
    exact ⟨g, b, state, hwrote, hr, hg, hg ▸ hmoment g b hwrote⟩
  · exact (hchronicle.minimal pool).once_in_block hpart hblocks
  · exact (hchronicle.minimal pool).moves.tail

/-- A block that is lost and fed again, the second time without a row of depths. -/
theorem depthRows_lostBlock :
    let actions := Action.lostBlock 5 6
    let s := ((World.down .empty).run actions).store
    (∀ v, (World.down .empty).Visits actions v → ¬ v.RefusesDepthRow) ∧
    s.rows.map Row.table = ["add_events", "block_pool_depths", "block_log", "block_log"] ∧
    depthsOf "BTC.BTC" s.rows = [⟨7, 9, 0⟩] ∧
    (∀ g b, Wrote ((World.down .empty).Visits actions) g b →
      ∀ pool, lastDepths .zero pool g.rows = g.books.totals.get pool) ∧
    (∀ front r back, s.rows = front ++ r :: back → r.table = "block_log" →
      ∃ g b state, Wrote ((World.down .empty).Visits actions) g b ∧ r = Block.row b state ∧
        g.rows = front ++ [r] ∧ ∀ pool, lastDepths .zero pool (front ++ [r]) = g.books.totals.get pool) ∧
    (∀ pool part, part <:+: s.rows → blockRows part = [] → (depthsOf pool part).length ≤ 1) ∧
    ∀ pool, (depthsOf pool s.rows).IsChain (· ≠ ·) := by
  have hcalm : ∀ s, Action.disturb s ∈ Action.lostBlock 5 6 → "block_pool_depths" ∉ s.rejectedTables := by
    intro s hs
    simp only [Action.lostBlock, List.mem_cons, reduceCtorEq, List.not_mem_nil, or_false] at hs
  have hrefuses := visits_not_refuses (Action.lostBlock 5 6) hcalm
  exact ⟨hrefuses, by decide +kernel, by decide +kernel, depthRows_exact (Action.lostBlock 5 6) hrefuses⟩

end World

end

end PoolIndexer
