import Mathlib.Data.List.Chain
import PoolIndexer.Proofs.Ingest.BlockLog

/-!
# Proofs.Record.DepthRows — the history of a pool as its rows give it

* `depthsOf`: the depths that rows give for a pool, in the order of writing, and `lastDepths`: the last
  of them, or what there was before.
* `marks`: the same with a mark for each block in between.
* `Minimal`: from zero on every row moves the depths, and there is a block between two rows.
* `Fresh`: the pool has no row since the last block, so one more row is allowed.
-/

namespace PoolIndexer

namespace Row

/-- The depths that a row gives for a pool. -/
def depths? (pool : String) (r : Row) : Option Depths :=
  if r.table = "block_pool_depths" ∧ r.text "pool" = pool then
    some ⟨r.word "asset_e8", r.word "rune_e8", r.word "synth_e8"⟩
  else none

/-- A block counts as a mark without depths. -/
def mark? (pool : String) (r : Row) : Option (Option Depths) :=
  if r.table = "block_log" then some none else (r.depths? pool).map some

@[simp] theorem depths?_depthRow (pool p : String) (d : Depths) (timestamp : Int64) :
    (DepthHistory.row p d timestamp).depths? pool = if p = pool then some d else none := by
  have htext : (DepthHistory.row p d timestamp).text "pool" = p := rfl
  unfold depths?
  rw [htext]
  by_cases hp : p = pool
  · rw [if_pos ⟨rfl, hp⟩, if_pos hp]
    rfl
  · rw [if_neg (fun h => hp h.2), if_neg hp]

theorem depths?_of_event {r : Row} (h : Event.IsTable r.table) (pool : String) : r.depths? pool = none := by
  refine if_neg fun hr => ?_
  exact absurd (hr.1 ▸ h) (by decide)

theorem mark?_of_event {r : Row} (h : Event.IsTable r.table) (pool : String) : r.mark? pool = none := by
  have htable : r.table ≠ "block_log" := fun hr => absurd (hr ▸ h) (by decide)
  rw [mark?, if_neg htable, depths?_of_event h]
  rfl

@[simp] theorem mark?_block (pool : String) (b : Block) (state : Option (List UInt8)) :
    (b.row state).mark? pool = some none :=
  if_pos rfl

@[simp] theorem mark?_depthRow (pool p : String) (d : Depths) (timestamp : Int64) :
    (DepthHistory.row p d timestamp).mark? pool = if p = pool then some (some d) else none := by
  have htable : (DepthHistory.row p d timestamp).table ≠ "block_log" :=
    show "block_pool_depths" ≠ "block_log" by decide
  rw [mark?, if_neg htable, depths?_depthRow]
  split <;> rfl

end Row

/-- The depths that rows give for a pool in the order of writing. -/
def depthsOf (pool : String) (rows : List Row) : List Depths := rows.filterMap (Row.depths? pool)

/-- The depths last given for a pool, or `base` if there are none. -/
def lastDepths (base : Depths) (pool : String) (rows : List Row) : Depths :=
  (depthsOf pool rows).getLast?.getD base

def marks (pool : String) (rows : List Row) : List (Option Depths) := rows.filterMap (Row.mark? pool)

section

variable {pool : String} {rows added : List Row}

theorem depthsOf_eq_marks (pool : String) (rows : List Row) :
    depthsOf pool rows = (marks pool rows).filterMap id := by
  unfold depthsOf marks
  rw [List.filterMap_filterMap]
  congr 1
  funext r
  unfold Row.mark?
  split
  · rename_i hblock
    have hnone : r.depths? pool = none := if_neg fun h => absurd (hblock.symm.trans h.1) (by decide)
    rw [hnone]
    rfl
  · cases r.depths? pool <;> rfl

theorem marks_append (pool : String) (xs ys : List Row) : marks pool (xs ++ ys) = marks pool xs ++ marks pool ys :=
  List.filterMap_append

theorem marks_of_events (h : ∀ r ∈ added, Event.IsTable r.table) (pool : String) : marks pool added = [] :=
  List.filterMap_eq_nil_iff.2 fun r hr => Row.mark?_of_event (h r hr) pool

@[simp] theorem marks_block (pool : String) (b : Block) (state : Option (List UInt8)) :
    marks pool [b.row state] = [none] := by
  rw [marks, List.filterMap_cons_some (Row.mark?_block pool b state), List.filterMap_nil]

@[simp] theorem marks_depthRow (pool p : String) (d : Depths) (timestamp : Int64) :
    marks pool [DepthHistory.row p d timestamp] = if p = pool then [some d] else [] := by
  have hmark := Row.mark?_depthRow pool p d timestamp
  by_cases hp : p = pool
  · rw [if_pos hp] at hmark ⊢
    rw [marks, List.filterMap_cons_some hmark, List.filterMap_nil]
  · rw [if_neg hp] at hmark ⊢
    rw [marks, List.filterMap_cons_none hmark, List.filterMap_nil]

/-! ### What is added -/

/-- Marks that stay the same leave the depths as they are. -/
theorem depthsOf_append_of_marks (h : marks pool added = []) : depthsOf pool (rows ++ added) = depthsOf pool rows := by
  rw [depthsOf_eq_marks, depthsOf_eq_marks, marks_append, h, List.append_nil]

theorem lastDepths_append_events (base : Depths) (h : ∀ r ∈ added, Event.IsTable r.table) :
    lastDepths base pool (rows ++ added) = lastDepths base pool rows := by
  unfold lastDepths
  rw [depthsOf_append_of_marks (marks_of_events h pool)]

theorem depthsOf_append_block (pool : String) (rows : List Row) (b : Block) (state : Option (List UInt8)) :
    depthsOf pool (rows ++ [b.row state]) = depthsOf pool rows := by
  rw [depthsOf_eq_marks, depthsOf_eq_marks, marks_append, marks_block, List.filterMap_append]
  exact List.append_nil _

theorem depthsOf_append_depthRow (pool : String) (rows : List Row) (p : String) (d : Depths)
    (timestamp : Int64) :
    depthsOf pool (rows ++ [DepthHistory.row p d timestamp]) =
      depthsOf pool rows ++ if p = pool then [d] else [] := by
  rw [depthsOf_eq_marks, depthsOf_eq_marks, marks_append, marks_depthRow, List.filterMap_append]
  split <;> rfl

theorem lastDepths_append_block (base : Depths) (pool : String) (rows : List Row) (b : Block)
    (state : Option (List UInt8)) :
    lastDepths base pool (rows ++ [b.row state]) = lastDepths base pool rows := by
  unfold lastDepths
  rw [depthsOf_append_block]

theorem lastDepths_append_depthRow (base : Depths) (pool : String) (rows : List Row) (p : String)
    (d : Depths) (timestamp : Int64) :
    lastDepths base pool (rows ++ [DepthHistory.row p d timestamp]) =
      if p = pool then d else lastDepths base pool rows := by
  unfold lastDepths
  rw [depthsOf_append_depthRow]
  split
  · rw [List.getLast?_append]
    rfl
  · rw [List.append_nil]

/-- What is written after some rows comes after what they give. -/
theorem lastDepths_append (base : Depths) (pool : String) (xs ys : List Row) :
    lastDepths base pool (xs ++ ys) = lastDepths (lastDepths base pool xs) pool ys := by
  unfold lastDepths depthsOf
  rw [List.filterMap_append, List.getLast?_append]
  cases (ys.filterMap (Row.depths? pool)).getLast? <;> rfl

/-! ### Rows that are due -/

structure Minimal (pool : String) (rows : List Row) : Prop where
  /-- From zero on, every row moves the depths. -/
  moves : (Depths.zero :: depthsOf pool rows).IsChain (· ≠ ·)
  /-- Between two rows there is a block. -/
  once : (marks pool rows).IsChain fun m m' => m = none ∨ m' = none

/-- There is no row of the pool since the last block. -/
def Fresh (pool : String) (rows : List Row) : Prop := ∀ d, (marks pool rows).getLast? ≠ some (some d)

theorem Minimal.nil (pool : String) : Minimal pool [] := ⟨.singleton _, .nil⟩

theorem Fresh.nil (pool : String) : Fresh pool [] := fun _ h => by cases h

theorem Minimal.of_front {front : List Row} (h : Minimal pool rows) (hfront : front <+: rows) :
    Minimal pool front := by
  have hdepths : Depths.zero :: depthsOf pool front <+: Depths.zero :: depthsOf pool rows :=
    (List.cons_prefix_cons).2 ⟨rfl, hfront.filterMap _⟩
  have hmoves := List.IsChain.prefix h.moves hdepths
  have honce := List.IsChain.prefix h.once (hfront.filterMap (Row.mark? pool))
  exact ⟨hmoves, honce⟩

theorem Minimal.append_of_marks (h : Minimal pool rows) (hadded : marks pool added = []) :
    Minimal pool (rows ++ added) := by
  refine ⟨?_, ?_⟩
  · rw [depthsOf_append_of_marks hadded]
    exact h.moves
  · rw [marks_append, hadded, List.append_nil]
    exact h.once

theorem Fresh.append_of_marks (h : Fresh pool rows) (hadded : marks pool added = []) :
    Fresh pool (rows ++ added) := by
  unfold Fresh
  rw [marks_append, hadded, List.append_nil]
  exact h

theorem Fresh.append_block (pool : String) (rows : List Row) (b : Block) (state : Option (List UInt8)) :
    Fresh pool (rows ++ [b.row state]) := by
  intro d h
  rw [marks_append, marks_block, List.getLast?_append] at h
  cases h

theorem Minimal.append_block (h : Minimal pool rows) (b : Block) (state : Option (List UInt8)) :
    Minimal pool (rows ++ [b.row state]) := by
  refine ⟨?_, ?_⟩
  · rw [depthsOf_append_block]
    exact h.moves
  · rw [marks_append, marks_block]
    refine h.once.append (.singleton _) fun m _ m' hm' => ?_
    exact .inr (List.mem_singleton.1 (List.mem_of_mem_head? hm'))

/-- A pool that has no row in the block and has moved gets one. -/
theorem Minimal.append_depthRow (h : Minimal pool rows) {d : Depths} (timestamp : Int64)
    (hfresh : Fresh pool rows) (hmoved : d ≠ lastDepths .zero pool rows) :
    Minimal pool (rows ++ [DepthHistory.row pool d timestamp]) := by
  refine ⟨?_, ?_⟩
  · rw [depthsOf_append_depthRow, if_pos rfl, ← List.cons_append]
    refine h.moves.append (.singleton _) fun last hlast d' hd' => ?_
    have hlast' : last = lastDepths .zero pool rows := by
      unfold lastDepths
      rw [List.getLast?_cons] at hlast
      exact (Option.some.inj hlast).symm
    have hd : d' = d := List.mem_singleton.1 (List.mem_of_mem_head? hd')
    rw [hlast', hd]
    exact hmoved.symm
  · rw [marks_append, marks_depthRow, if_pos rfl]
    refine h.once.append (.singleton _) fun m hm m' _ => .inl ?_
    cases m with
    | none => rfl
    | some last => exact absurd hm (hfresh last)

/-- In one block a pool has one row at most. -/
theorem Minimal.once_in_block (h : Minimal pool rows) {part : List Row} (hpart : part <:+: rows)
    (hblocks : blockRows part = []) : (depthsOf pool part).length ≤ 1 := by
  have hchain := List.IsChain.infix h.once (hpart.filterMap (Row.mark? pool))
  have hsome : ∀ m ∈ marks pool part, m ≠ none := by
    rintro m hm rfl
    obtain ⟨r, hr, hmark⟩ := List.mem_filterMap.1 hm
    have htable : r.table ≠ "block_log" := fun htable => by
      have hmem : r ∈ blockRows part := List.mem_filter.2 ⟨hr, decide_eq_true htable⟩
      rw [hblocks] at hmem
      cases hmem
    rw [Row.mark?, if_neg htable] at hmark
    cases hdepths : r.depths? pool <;> rw [hdepths] at hmark <;> cases hmark
  rw [depthsOf_eq_marks]
  change (marks pool part).IsChain _ at hchain
  -- two marks next to each other would both have depths
  cases hmarks : marks pool part with
  | nil => exact Nat.zero_le _
  | cons m rest =>
    rw [hmarks] at hchain hsome
    cases rest with
    | nil => exact List.length_filterMap_le _ _
    | cons m' rest =>
      rcases (List.isChain_cons_cons.1 hchain).1 with hm | hm
      · exact absurd hm (hsome m List.mem_cons_self)
      · exact absurd hm (hsome m' (List.mem_cons_of_mem _ List.mem_cons_self))

end

end PoolIndexer
