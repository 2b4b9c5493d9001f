import PoolIndexer.Chain.Scripted
import PoolIndexer.Proofs.Instant

/-!
# Proofs.Chain.Node — ranges of heights, and a node with a chain

A node with a chain has a fixed head and hands out exactly the blocks that it is asked for.  One such node
is that of a chain which does not grow, and a chain for it is that of the scripted blocks.  A node is exact if
all that it hands out is what it was asked for, whenever it does so.
-/

namespace PoolIndexer

namespace Node

/-! ### Heights -/

theorem heights_of_lt {low high : Int64} (h : high.toInt < low.toInt) : heights low high = [] := by
  unfold heights
  rw [show (high.toInt - low.toInt + 1).toNat = 0 by omega]
  rfl

theorem heights_of_le {low next high : Int64} (h : low.toInt ≤ high.toInt)
    (hnext : next.toInt = low.toInt + 1) : heights low high = low :: heights next high := by
  unfold heights
  rw [show (high.toInt - low.toInt + 1).toNat = (high.toInt - next.toInt + 1).toNat + 1 by omega,
    List.range_succ_eq_map, List.map_cons, List.map_map]
  refine List.cons_eq_cons.2 ⟨?_, List.map_congr_left fun i _ => ?_⟩
  · rw [show low.toInt + (0 : Nat) = low.toInt by omega, Int64.ofInt_toInt]
  · show Int64.ofInt (low.toInt + ((i + 1 : Nat) : Int)) = Int64.ofInt (next.toInt + i)
    rw [hnext, show low.toInt + ((i + 1 : Nat) : Int) = low.toInt + 1 + i by omega]

theorem heights_self (h : Int64) : heights h h = [h] := by
  unfold heights
  rw [Int.sub_self]
  show [Int64.ofInt (h.toInt + (0 : Nat))] = [h]
  rw [Int.ofNat_zero, Int.add_zero, Int64.ofInt_toInt]

theorem heights_ne_nil {low high : Int64} (h : low.toInt ≤ high.toInt) : heights low high ≠ [] := by
  intro hnil
  have hlength := congrArg List.length hnil
  simp only [heights, List.length_map, List.length_range, List.length_nil] at hlength
  omega

/-- A shorter range is the front of a longer one. -/
theorem heights_prefix (low : Int64) {high high' : Int64} (h : high.toInt ≤ high'.toInt) :
    heights low high <+: heights low high' := by
  unfold heights
  have hlength : (high.toInt - low.toInt + 1).toNat ≤ (high'.toInt - low.toInt + 1).toNat := by omega
  obtain ⟨more, hmore⟩ := Nat.le.dest hlength
  rw [← hmore, List.range_add, List.map_append]
  exact List.prefix_append _ _

/-- A range falls into two at any height of it. -/
theorem heights_append {low mid next high : Int64} (hlow : low.toInt ≤ mid.toInt) (hnext : next.toInt = mid.toInt + 1)
    (hhigh : mid.toInt ≤ high.toInt) : heights low mid ++ heights next high = heights low high := by
  unfold heights
  rw [show (high.toInt - low.toInt + 1).toNat =
      (mid.toInt - low.toInt + 1).toNat + (high.toInt - next.toInt + 1).toNat by omega,
    List.range_add, List.map_append, List.map_map]
  refine congrArg _ (List.map_congr_left fun i _ => congrArg Int64.ofInt ?_)
  show next.toInt + i = low.toInt + (((mid.toInt - low.toInt + 1).toNat + i : Nat) : Int)
  omega

theorem toInt_add_ofNat {low : Int64} {n : Nat} (hlow : 0 ≤ low.toInt) (h : low.toInt + n < 2 ^ 63) :
    (low + Int64.ofNat n).toInt = low.toInt + n := by
  rw [Int64.toInt_add, Int64.toInt_ofNat_of_lt (by omega)]
  exact Int.bmod_eq_of_le (by omega) (by omega)

/-- A range as steps above its lower end. -/
theorem heights_eq_map {low high : Int64} {n : Nat} (h : high.toInt = low.toInt + n - 1) :
    heights low high = (List.range n).map fun i => low + Int64.ofNat i := by
  unfold heights
  rw [show (high.toInt - low.toInt + 1).toNat = n by omega]
  refine List.map_congr_left fun i _ => ?_
  rw [Int64.ofInt_add, Int64.ofInt_toInt, Int64.ofInt_eq_ofNat]

/-- What is left of a range from some height on is a range. -/
theorem filter_heights (wanted : Int64) {low high : Int64} (hhigh : high.toInt < 2 ^ 63 - 1) :
    (heights low high).filter (fun h => wanted.toInt ≤ h.toInt) = heights (Checked.larger wanted low) high := by
  generalize hn : (high.toInt - low.toInt + 1).toNat = n
  induction n generalizing low with
  | zero =>
    have hlarger := Checked.toInt_larger wanted low
    rw [heights_of_lt (by omega), heights_of_lt (by omega), List.filter_nil]
  | succ n ih =>
    have hlow := Int64.le_toInt low
    obtain ⟨next, -, hnext⟩ := Checked.exists_fit .add (show -2 ^ 63 ≤ low.toInt + 1 by omega) (by omega)
    rw [heights_of_le (by omega) hnext]
    have hrest : (heights next high).filter (fun h => wanted.toInt ≤ h.toInt) =
        heights (Checked.larger wanted next) high := ih (by omega)
    by_cases hwanted : wanted.toInt ≤ low.toInt
    · have hkeep : Checked.larger wanted low = low := Int64.toInt_inj.1 (by rw [Checked.toInt_larger]; omega)
      have hkeep' : Checked.larger wanted next = next := Int64.toInt_inj.1 (by rw [Checked.toInt_larger]; omega)
      rw [List.filter_cons_of_pos (by simpa using hwanted), hrest, hkeep, hkeep', heights_of_le (by omega) hnext]
    · have hdrop : Checked.larger wanted low = wanted := Int64.toInt_inj.1 (by rw [Checked.toInt_larger]; omega)
      have hdrop' : Checked.larger wanted next = wanted := Int64.toInt_inj.1 (by rw [Checked.toInt_larger]; omega)
      rw [List.filter_cons_of_neg (by simpa using hwanted), hrest, hdrop, hdrop']

/-! ### A chain -/

variable {σ : Type}

/-- The node has the blocks of a chain up to a fixed head. -/
structure Has (node : Node σ) (chain : Int64 → Block) (head : Int64) : Prop where
  head_eq : ∀ s, (node.head s).1 = .ok head
  blocks_eq : ∀ (low high : Int64) (s : σ), 1 ≤ low.toInt → low.toInt ≤ high.toInt → high.toInt ≤ head.toInt →
    (node.blocks low high s).1 = .ok ((heights low high).map chain)
  height_eq : ∀ h : Int64, 1 ≤ h.toInt → h.toInt ≤ head.toInt → (chain h).height = h

/-- The node of a chain that does not grow. -/
def steady (chain : Int64 → Block) (head : Int64) : Node Unit where
  head s := (.ok head, s)
  blocks low high s := (.ok ((heights low high).map chain), s)

theorem has_steady {chain : Int64 → Block} {head : Int64}
    (h : ∀ i : Int64, 1 ≤ i.toInt → i.toInt ≤ head.toInt → (chain i).height = i) : (steady chain head).Has chain head :=
  ⟨fun _ => rfl, fun _ _ _ _ _ _ => rfl, h⟩

/-! ### Exact answers -/

/-- If the node hands out blocks at all, they are those of the heights that it was asked for, each with a time of
the calendar.  Its requests may fail, and its head may be anywhere. -/
def Exact (node : Node σ) : Prop :=
  ∀ (low high : Int64) (s : σ) (bs : List Block), (node.blocks low high s).1 = .ok bs →
    bs.map Block.height = heights low high ∧ ∀ b ∈ bs, b.timestamp.IsValid

theorem exact_steady {chain : Int64 → Block} {head : Int64} (hheight : ∀ h, (chain h).height = h)
    (hvalid : ∀ h, (chain h).timestamp.IsValid) : (steady chain head).Exact := by
  intro low high s bs h
  cases h
  rw [List.map_map]
  refine ⟨List.map_id'' hheight _, fun b hb => ?_⟩
  obtain ⟨h, -, rfl⟩ := List.mem_map.1 hb
  exact hvalid h

end Node

/-- A scripted block has a time of the calendar: all of them lie within some seventy days. -/
theorem ScriptedNode.isValid_block (h : Int64) : (block h).timestamp.IsValid := by
  have hdays : ∀ i < 70, (Date.ofDayNumber (18518 + (i : Nat))).isValid = true := by decide
  have htime : (block h).timestamp = Instant.ofSeconds (1600000000 + 6 * max (-1000) (min h.toInt 1000000)) := rfl
  generalize hseconds : 1600000000 + 6 * max (-1000) (min h.toInt 1000000) = seconds at htime
  have hday : seconds / 86400 = 18518 + ((seconds / 86400 - 18518).toNat : Nat) := by omega
  rw [htime]
  unfold Instant.ofSeconds
  refine ⟨?_, ?_, ?_, ?_, ?_⟩
  · dsimp only
    rw [hday]
    exact hdays _ (by omega)
  all_goals
    dsimp only
    omega

end PoolIndexer
