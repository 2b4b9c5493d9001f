import PoolIndexer.Proofs.Ingest.Account

/-!
# Proofs.Ingest.Heights — the block ledger has no gap and no repeat

Every lifetime of an ingestor goes on where the stored blocks end, and a block is stored only
together with all that came before it.  So the heights of the ledger count up from the start height
in the order of writing, and the last row carries the totals that the next start goes on from.
-/

namespace PoolIndexer

/-- The heights of the ledger count up from `start`, and `next` is the one above them. -/
def CountsUp (start : Int) (rows : List Row) (_ : Balances) (next : Int) : Prop :=
  ∃ n : Nat, next = start + n ∧
    (blockRows rows).map Row.blockHeight? = (List.range n).map fun i : Nat => some (start + i)

theorem CountsUp.of_blockRows_eq {start next : Int} {rows rows' : List Row} {b b' : Balances}
    (h : CountsUp start rows b next) (heq : blockRows rows' = blockRows rows) :
    CountsUp start rows' b' next := by
  obtain ⟨n, hnext, hheights⟩ := h
  exact ⟨n, hnext, by rw [heq, hheights]⟩

theorem account_countsUp (start : Int) : Account (fun _ _ => True) (CountsUp start) where
  below := by
    rintro rows balances next ⟨n, rfl, hheights⟩ r hr h hh
    have hmem : some h ∈ (List.range n).map fun i : Nat => some (start + i) := by
      rw [← hheights, ← hh]
      exact List.mem_map_of_mem hr
    obtain ⟨i, hi, heq⟩ := List.mem_map.1 hmem
    have hlt : i < n := List.mem_range.1 hi
    cases heq
    omega
  event := by
    intro r e m rows added next t _ h hadded _
    refine h.of_blockRows_eq ?_
    rw [blockRows_append, Event.blockRows_rows hadded, List.append_nil]
  depth := by
    intro rows balances next pool d timestamp h
    refine h.of_blockRows_eq ?_
    rw [blockRows_append, blockRows_depthRow, List.append_nil]
  block := by
    rintro rows balances b state ⟨n, hnext, hheights⟩
    refine ⟨n + 1, by omega, ?_⟩
    rw [blockRows_append, List.map_append, hheights, List.range_succ, List.map_append, blockRows_row,
      List.map_singleton, List.map_singleton, Block.blockHeight?_row, hnext]

/-- **Block ledger**: over any history whose ingestors begin an empty store at the same height, the
heights of the ledger count up from there.  If anything is stored, its last row is a block with the
totals after it, which is the latest checkpoint and the highest block, and a new start goes on at
the height above. -/
theorem World.blockLog_countsUp (start : Int64) (actions : List Action)
    (hstart : ∀ setup, Action.start setup ∈ actions → setup.startHeight = start) :
    let s := ((World.down .empty).run actions).store
    ∃ n : Nat,
      (s.rowsOf "block_log").map Row.blockHeight? =
        (List.range n).map (fun i : Nat => some (start.toInt + i)) ∧
      (s.rows ≠ [] → ∃ front b state, s.rows = front ++ [Block.row b (some state)] ∧
        s.latestCheckpoint = some (b.checkpoint state) ∧ b.height.toInt + 1 = start.toInt + n ∧
        (∀ r ∈ s.rowsOf "block_log", ∀ h, r.blockHeight? = some h → h ≤ b.height.toInt) ∧
        ∀ startHeight, (Recovered.ofStore s startHeight).map Recovered.nextHeight =
          (Checked.add b.height 1).mapError .overflow) := by
  intro s
  have hP := account_countsUp start.toInt
  have hempty : CountsUp start.toInt [] .empty start.toInt := ⟨0, (Int.add_zero _).symm, rfl⟩
  have hkeeps : ((World.down .empty).run actions).Keeps (fun _ _ => True) (CountsUp start.toInt)
      fun _ => True := by
    refine World.keeps_run hP actions (fun a ha => ?_) (.inl rfl)
    cases a with
    | start setup =>
      refine ⟨?_, fun _ _ _ _ => trivial⟩
      rw [hstart setup ha]
      exact hempty
    | _ => trivial
  have hsealed : Sealed (CountsUp start.toInt) s.rows := hkeeps.stored
  by_cases hrows : s.rows = []
  · refine ⟨0, ?_, fun hne => absurd hrows hne⟩
    show (blockRows s.rows).map _ = _
    rw [hrows]
    rfl
  · obtain ⟨front, b, state, t, hlast, hlatest, hstate, hcounts⟩ := hsealed.latestCheckpoint hP hrows
    have hbelow := hP.below hcounts
    obtain ⟨n, hnext, hheights⟩ := hcounts
    refine ⟨n, hheights, fun _ => ⟨front, b, state, hlast, hlatest, hnext, ?_, fun startHeight => ?_⟩⟩
    · exact fun r hr h hh => Int.le_of_lt_add_one (hbelow r hr h hh)
    · rw [Recovered.ofStore_eq hlatest hstate]
      cases Checked.add b.height 1 <;> rfl

/-- A lost block is stored once. -/
theorem World.blockLog_lostBlock :
    let s := ((World.down .empty).run (Action.lostBlock 5 6)).store
    (∀ setup, Action.start setup ∈ Action.lostBlock 5 6 → setup.startHeight = 5) ∧
      (s.rowsOf "block_log").map Row.blockHeight? = [some 5, some 6] ∧
      ∃ n : Nat,
        (s.rowsOf "block_log").map Row.blockHeight? =
          (List.range n).map (fun i : Nat => some (Int64.toInt 5 + i)) ∧
        (s.rows ≠ [] → ∃ front b state, s.rows = front ++ [Block.row b (some state)] ∧
          s.latestCheckpoint = some (b.checkpoint state) ∧ b.height.toInt + 1 = Int64.toInt 5 + n ∧
          (∀ r ∈ s.rowsOf "block_log", ∀ h, r.blockHeight? = some h → h ≤ b.height.toInt) ∧
          ∀ startHeight, (Recovered.ofStore s startHeight).map Recovered.nextHeight =
            (Checked.add b.height 1).mapError .overflow) := by
  have hstart : ∀ setup, Action.start setup ∈ Action.lostBlock 5 6 → setup.startHeight = 5 := by
    intro setup h
    simp only [Action.lostBlock, List.mem_cons, reduceCtorEq, Action.start.injEq, List.not_mem_nil,
      or_false, false_or] at h
    rcases h with rfl | rfl <;> rfl
  exact ⟨hstart, by decide +kernel, World.blockLog_countsUp 5 (Action.lostBlock 5 6) hstart⟩

end PoolIndexer
