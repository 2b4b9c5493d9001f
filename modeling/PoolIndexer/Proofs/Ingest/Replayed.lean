import PoolIndexer.Proofs.Demux
import PoolIndexer.Proofs.Ingest.Account

/-!
# Proofs.Ingest.Replayed — the latest checkpoint is what the stored rows add up to

Rows and totals are changed by different means, but an event changes both or neither, and both
become durable in one flush.  So the totals of the latest checkpoint can be found again from the
rows alone.
-/

namespace PoolIndexer

/-- The block that an action feeds. -/
def Action.block? : Action → Option Block
  | .process b _ | .offer b _ => some b
  | .disturb _ | .start _ | .work | .drop => none

/-- The balances are those that the rows add up to, and no block is above the next height. -/
def AddsUp (r : Recorder) (rows : List Row) (balances : Balances) (next : Int) : Prop :=
  balances = .replay r.natives r.coinKeptBelow rows ∧
    ∀ row ∈ blockRows rows, ∀ h, row.blockHeight? = some h → h < next

theorem AddsUp.append {r : Recorder} {rows added : List Row} {balances : Balances} {next : Int}
    (h : AddsUp r rows balances next) (hadded : blockRows added = []) :
    AddsUp r (rows ++ added)
      (balances.postAll (added.flatMap (Row.postings r.natives r.coinKeptBelow))) next := by
  obtain ⟨rfl, hbelow⟩ := h
  refine ⟨(Balances.replay_append rows added).symm, ?_⟩
  rw [blockRows_append, hadded, List.append_nil]
  exact hbelow

theorem account_addsUp (r : Recorder) :
    Account (fun r' p => r' = r ∧ p.1.PlacedAt p.2) (AddsUp r) where
  below h := h.2
  event := by
    rintro _ e m rows added next t ⟨rfl, hplaced⟩ h hadded hfault
    rw [Event.balances_applyAll hplaced hadded hfault]
    exact h.append (Event.blockRows_rows hadded)
  depth := by
    intro rows balances next pool d timestamp h
    have hpostings : (DepthHistory.row pool d timestamp).postings r.natives r.coinKeptBelow = [] :=
      Row.postings_of_lookup_eq_none rfl
    have happend := h.append (blockRows_depthRow pool d timestamp)
    rw [List.flatMap_cons, hpostings] at happend
    exact happend
  block := by
    rintro rows balances b state ⟨hbalances, hbelow⟩
    have hpostings : (b.row state).postings r.natives r.coinKeptBelow = [] :=
      Row.postings_of_lookup_eq_none rfl
    refine ⟨?_, fun row hrow h hh => ?_⟩
    · rw [Balances.replay_append, List.flatMap_cons, hpostings, hbalances]
      rfl
    · rw [blockRows_append, blockRows_row] at hrow
      rcases List.mem_append.1 hrow with hrow | hrow
      · exact Int.lt_add_one_of_le (Int.le_of_lt (hbelow row hrow h hh))
      · rw [List.mem_singleton.1 hrow, Block.blockHeight?_row] at hh
        cases hh
        exact Int.lt_succ b.height.toInt

/-- A store whose rows end in a block has a checkpoint, and its totals are what the rows add up to. -/
theorem Sealed.balances_latestCheckpoint {r : Recorder} {s : Store} (h : Sealed (AddsUp r) s.rows) :
    (s.latestCheckpoint = none → s.rows = []) ∧
      ∀ c, s.latestCheckpoint = some c → ∃ t, Snapshot.decode c.state c.height = .ok t ∧
        t.balances = .replay r.natives r.coinKeptBelow s.rows := by
  by_cases hrows : s.rows = []
  · refine ⟨fun _ => hrows, fun c hc => ?_⟩
    rw [Store.latestCheckpoint_eq_none hrows] at hc
    cases hc
  · obtain ⟨front, b, state, t, hlast, hlatest, hstate, haddsUp⟩ := h.latestCheckpoint (account_addsUp r) hrows
    rw [hlatest]
    refine ⟨nofun, fun c hc => ?_⟩
    cases hc
    exact ⟨_, Snapshot.decode_of_write hstate _, haddsUp.1⟩

theorem World.sealed_addsUp {r : Recorder} {actions : List Action}
    (hrecorder : ∀ setup, Action.start setup ∈ actions → setup.recorder = r)
    (hfit : ∀ setup, Action.start setup ∈ actions → ∀ a ∈ actions, ∀ b, a.block? = some b →
      setup.demux.WithdrawalsFit b) :
    Sealed (AddsUp r) ((World.down .empty).run actions).store.rows := by
  have hkeeps : ((World.down .empty).run actions).Keeps (fun r' p => r' = r ∧ p.1.PlacedAt p.2)
      (AddsUp r) fun b => ∃ a ∈ actions, a.block? = some b := by
    refine World.keeps_run (account_addsUp r) actions (fun a ha => ?_) (.inl rfl)
    cases a with
    | start setup =>
      refine ⟨⟨rfl, fun _ h => absurd h List.not_mem_nil⟩, ?_⟩
      rintro b ⟨a', ha', hb⟩ ⟨e, m⟩ hp
      refine ⟨hrecorder setup ha, (Demux.placed_run setup.demux b _ hp).1, ?_⟩
      rintro w rfl
      exact hfit setup ha a' ha' b hb w m hp
    | process b batchEnd => exact ⟨_, ha, rfl⟩
    | offer b batchEnd => exact ⟨_, ha, rfl⟩
    | _ => trivial
  exact hkeeps.stored

/-- **Checkpoints**: over any history of ingestors that record alike, the totals read from the latest
checkpoint are what the stored rows add up to.  Withdrawals must have indices that fit under their
phases: those of a block do, and configured corrections inject none (`World.checkpoint_ofConfig`). -/
theorem World.checkpoint_eq_replay (r : Recorder) (actions : List Action)
    (hrecorder : ∀ setup, Action.start setup ∈ actions → setup.recorder = r)
    (hfit : ∀ setup, Action.start setup ∈ actions → ∀ a ∈ actions, ∀ b, a.block? = some b →
      setup.demux.WithdrawalsFit b) :
    let s := ((World.down .empty).run actions).store
    (s.latestCheckpoint = none → s.rows = []) ∧
      ∀ c, s.latestCheckpoint = some c → ∃ t, Snapshot.decode c.state c.height = .ok t ∧
        t.balances = .replay r.natives r.coinKeptBelow s.rows := by
  intro s
  have hsealed : Sealed (AddsUp r) s.rows := World.sealed_addsUp hrecorder hfit
  exact hsealed.balances_latestCheckpoint

/-- The seed of a pool is stored once, and the checkpoint after a lost block still has it. -/
theorem World.checkpoint_lostBlock :
    let s := ((World.down .empty).run (Action.lostBlock 5 6)).store
    (∀ setup, Action.start setup ∈ Action.lostBlock 5 6 → setup.recorder = ⟨.default, none⟩) ∧
      (∀ setup, Action.start setup ∈ Action.lostBlock 5 6 → ∀ a ∈ Action.lostBlock 5 6, ∀ b,
        a.block? = some b → setup.demux.WithdrawalsFit b) ∧
      (Balances.replay .default none s.rows).get "BTC.BTC" = ⟨7, 9, 0⟩ ∧
      (s.latestCheckpoint = none → s.rows = []) ∧
      ∀ c, s.latestCheckpoint = some c → ∃ t, Snapshot.decode c.state c.height = .ok t ∧
        t.balances = .replay .default none s.rows := by
  have hsetup : ∀ setup, Action.start setup ∈ Action.lostBlock 5 6 →
      setup = .seeded .batch 5 ∨ setup = .seeded .tolerant 5 := by
    intro setup h
    simpa only [Action.lostBlock, List.mem_cons, reduceCtorEq, Action.start.injEq, List.not_mem_nil,
      or_false, false_or] using h
  have hrecorder : ∀ setup, Action.start setup ∈ Action.lostBlock 5 6 →
      setup.recorder = ⟨.default, none⟩ := by
    intro setup h
    rcases hsetup setup h with rfl | rfl <;> rfl
  have hfit : ∀ setup, Action.start setup ∈ Action.lostBlock 5 6 → ∀ a ∈ Action.lostBlock 5 6, ∀ b,
      a.block? = some b → setup.demux.WithdrawalsFit b := by
    intro setup h a _ b _
    refine Demux.withdrawalsFit_of_not_injected fun w => CorrectionTable.not_mem_injected ?_ b.height w
    have hnone : (CorrectionTable.ofChain "" .default).InjectsNoWithdrawal :=
      fun _ hp => absurd hp List.not_mem_nil
    rcases hsetup setup h with rfl | rfl
    · exact CorrectionTable.injectsNoWithdrawal_inject hnone _ _ fun _ => Event.noConfusion
    · exact CorrectionTable.injectsNoWithdrawal_inject hnone _ _ fun _ => Event.noConfusion
  exact ⟨hrecorder, hfit, by decide +kernel,
    World.checkpoint_eq_replay ⟨.default, none⟩ (Action.lostBlock 5 6) hrecorder hfit⟩

/-- With configured corrections no more is asked for: every start may even have a configuration of its own, as long
as it records alike. -/
theorem World.checkpoint_ofConfig (r : Recorder) (actions : List Action)
    (hrecorder : ∀ setup, Action.start setup ∈ actions → setup.recorder = r)
    (hconfig : ∀ setup, Action.start setup ∈ actions → ∃ c chainId natives genesisHeight,
      setup.demux.corrections = .ofConfig c chainId natives genesisHeight) :
    let s := ((World.down .empty).run actions).store
    (s.latestCheckpoint = none → s.rows = []) ∧
      ∀ c, s.latestCheckpoint = some c → ∃ t, Snapshot.decode c.state c.height = .ok t ∧
        t.balances = .replay r.natives r.coinKeptBelow s.rows := by
  intro s
  have hsealed : Sealed (AddsUp r) s.rows := by
    refine World.sealed_addsUp hrecorder fun setup hstart _ _ b _ => ?_
    obtain ⟨c, chainId, natives, genesisHeight, hcorrections⟩ := hconfig setup hstart
    exact Demux.withdrawalsFit_ofConfig hcorrections b
  exact hsealed.balances_latestCheckpoint

end PoolIndexer
