import Mathlib.Data.List.Basic
import PoolIndexer.Proofs.Chain.Archive.Names
import PoolIndexer.Proofs.Chain.Archive.Text
import PoolIndexer.Proofs.Chain.Node

/-!
# Proofs.Chain.Archive.Tiles — complete batches side by side

* `tiling`: the complete batches of the first heights of a chain, all of one size.
* `Written q r`: a writer with `q` complete batches and `r` blocks in the next one; appending a block leads from
  one such state to another.
* `ahead_tiles`: a reader of such batches has the blocks of all their heights ahead of it.
-/

namespace PoolIndexer.Archive

section

variable (chain : Int64 → Block) (first : Int64) (size : Nat)

/-- The blocks of `n` heights from one on. -/
def stretch (low : Int64) (n : Nat) : List Block :=
  (List.range n).map fun i => chain (low + Int64.ofNat i)

/-- The last height of a batch. -/
def tileLast (i : Nat) : Int64 := first + Int64.ofNat (size * i + (size - 1))

def tileBatch (i : Nat) : Batch := ⟨batchName (tileLast first size i), tileLast first size i⟩

/-- The file of a batch. -/
def tile (i : Nat) : String × Item :=
  (batchName (tileLast first size i), .packed (Writer.text (stretch chain (first + Int64.ofNat (size * i)) size)))

/-- The first `q` batches, which have `size` heights each. -/
def tiling (q : Nat) : Folder := (List.range q).map (tile chain first size)

end

variable {chain : Int64 → Block} {first : Int64} {size : Nat}

theorem stretch_succ (low : Int64) (n : Nat) :
    stretch chain low (n + 1) = stretch chain low n ++ [chain (low + Int64.ofNat n)] := by
  simp [stretch, List.range_succ]

theorem stretch_cons (low : Int64) (n : Nat) :
    stretch chain low (n + 1) = chain low :: stretch chain (low + 1) n := by
  have hzero : low + Int64.ofNat 0 = low := Int64.add_zero low
  rw [stretch, List.range_succ_eq_map, List.map_cons, List.map_map, stretch, hzero]
  refine congrArg _ (List.map_congr_left fun i _ => congrArg chain ?_)
  show low + Int64.ofNat (i + 1) = low + 1 + Int64.ofNat i
  rw [Nat.add_comm, Int64.ofNat_add, ← Int64.add_assoc]
  rfl

theorem tiling_succ (q : Nat) : tiling chain first size (q + 1) = tiling chain first size q ++ [tile chain first size q] := by
  simp [tiling, List.range_succ]

theorem ne_openName_of_mem_tiling {q : Nat} (height : Int64) :
    ∀ e ∈ tiling chain first size q, e.1 ≠ openName height := by
  intro e he
  obtain ⟨i, -, rfl⟩ := List.mem_map.1 he
  exact batchName_ne_openName _ height

section

variable (hfirst : 1 ≤ first.toInt) (hsize : 1 ≤ size)

include hfirst hsize

theorem toInt_tileLast {i : Nat} (hroom : first.toInt + (size * (i + 1) : Nat) ≤ 10 ^ 12) :
    (tileLast first size i).toInt = first.toInt + (size * (i + 1) : Nat) - 1 := by
  rw [Nat.mul_succ] at hroom ⊢
  rw [tileLast, Node.toInt_add_ofNat (by omega) (by omega)]
  omega

theorem tileLast_lt {q i : Nat} (hi : i < q) (hroom : first.toInt + (size * q : Nat) ≤ 10 ^ 12) :
    (tileLast first size i).toInt = first.toInt + (size * (i + 1) : Nat) - 1 ∧
      (tileLast first size i).toInt < first.toInt + (size * q : Nat) := by
  have hmul : size * (i + 1) ≤ size * q := Nat.mul_le_mul_left size hi
  have hlast := toInt_tileLast hfirst hsize (i := i) (by omega)
  omega

theorem isOpenName_of_mem_tiling {q : Nat} (hroom : first.toInt + (size * q : Nat) ≤ 10 ^ 12) :
    ∀ e ∈ tiling chain first size q, isOpenName e.1 = false := by
  intro e he
  obtain ⟨i, hi, rfl⟩ := List.mem_map.1 he
  have hlast := tileLast_lt hfirst hsize (List.mem_range.1 hi) hroom
  exact isOpenName_batchName (by omega) (by omega)

theorem ne_batchName_of_mem_tiling {q : Nat} (hroom : first.toInt + (size * (q + 1) : Nat) ≤ 10 ^ 12) :
    ∀ e ∈ tiling chain first size q, e.1 ≠ batchName (tileLast first size q) := by
  intro e he hname
  obtain ⟨i, hi, rfl⟩ := List.mem_map.1 he
  have hmul : size * (q + 1) = size * q + size := Nat.mul_succ size q
  have hlast := toInt_tileLast hfirst hsize hroom
  have hlast' := tileLast_lt hfirst hsize (List.mem_range.1 hi) (by omega)
  have hsame : (tileLast first size i).toInt = (tileLast first size q).toInt :=
    congrArg Int64.toInt (batchName_injective hname)
  omega

end

/-! ### Folders -/

theorem get?_eq_none_of_forall {f : Folder} {name : String} (h : ∀ e ∈ f, e.1 ≠ name) : f.get? name = none :=
  List.lookup_eq_none_iff.2 fun e he => bne_iff_ne.2 fun hname => h e he hname.symm

theorem erase_of_forall {f : Folder} {name : String} (h : ∀ e ∈ f, e.1 ≠ name) : f.erase name = f :=
  List.filter_eq_self.2 fun e he => decide_eq_true fun hname => h e he hname.symm

theorem put_of_forall {f : Folder} {name : String} (h : ∀ e ∈ f, e.1 ≠ name) (item : Item) :
    f.put name item = f ++ [(name, item)] := by
  rw [Folder.put, erase_of_forall h]

section

variable {f : Folder} {name : String} (h : ∀ e ∈ f, e.1 ≠ name) (item : Item)

include h

theorem get?_concat : Folder.get? (f ++ [(name, item)]) name = some item := by
  have hnone := get?_eq_none_of_forall h
  unfold Folder.get? at hnone ⊢
  simp [List.lookup_append, hnone]

theorem erase_concat : Folder.erase (f ++ [(name, item)]) name = f := by
  have herase := erase_of_forall h
  unfold Folder.erase at herase ⊢
  rw [List.filter_append, herase]
  simp

end

theorem get?_tiling (hfirst : 1 ≤ first.toInt) (hsize : 1 ≤ size) {q i : Nat}
    (hroom : first.toInt + (size * q : Nat) ≤ 10 ^ 12) (hi : i < q) :
    (tiling chain first size q).get? (batchName (tileLast first size i)) = some (tile chain first size i).2 := by
  induction q with
  | zero => exact absurd hi (Nat.not_lt_zero i)
  | succ q ih =>
    rw [tiling_succ]
    rcases Nat.lt_succ_iff_lt_or_eq.1 hi with hi | rfl
    · have hmul : size * (q + 1) = size * q + size := Nat.mul_succ size q
      have hfront := ih (by omega) hi
      unfold Folder.get? at hfront ⊢
      rw [List.lookup_append, hfront, Option.some_or]
    · exact get?_concat (ne_batchName_of_mem_tiling hfirst hsize hroom) _

/-! ### Appending -/

/-- There are `q` complete batches, and the writer has put `r` blocks into the next one. -/
structure Written (chain : Int64 → Block) (first : Int64) (size q r : Nat) (w : Writer) (f : Folder) : Prop where
  size_eq : w.blocksPerFile = size
  next_eq : w.nextHeight = first + Int64.ofNat (size * q + r)
  lt_size : r < size
  current_eq : w.current = if r = 0 then none
    else some ⟨openName (tileLast first size q), stretch chain (first + Int64.ofNat (size * q)) r⟩
  folder_eq : f = tiling chain first size q ++ if r = 0 then [] else [(openName (tileLast first size q), .packed "")]

section

variable {q r : Nat} {w : Writer} {f : Folder}

theorem Written.toInt_nextHeight (h : Written chain first size q r w f) (hfirst : 1 ≤ first.toInt)
    (hroom : first.toInt + (size * q + r : Nat) < 2 ^ 63) :
    w.nextHeight.toInt = first.toInt + (size * q + r : Nat) := by
  rw [h.next_eq]
  exact Node.toInt_add_ofNat (by omega) hroom

/-- A new batch is named for the last height of the next tile. -/
theorem nameFor_tile (hcount : w.blocksPerFile = size) (hfirst : 1 ≤ first.toInt) (hsize : 1 ≤ size)
    (hroom : first.toInt + (size * (q + 1) : Nat) ≤ 10 ^ 12) :
    w.nameFor (first + Int64.ofNat (size * q)) = .ok (openName (tileLast first size q)) := by
  have hlast := toInt_tileLast hfirst hsize hroom
  rw [Nat.mul_succ] at hroom hlast
  have hlow : (first + Int64.ofNat (size * q)).toInt = first.toInt + (size * q : Nat) :=
    Node.toInt_add_ofNat (by omega) (by omega)
  have hcount' : (Int64.ofNat w.blocksPerFile).toInt = size := by
    rw [hcount]
    exact Int64.toInt_ofNat_of_lt (by omega)
  obtain ⟨above, habove, habove'⟩ := Checked.exists_fit .add
    (show -2 ^ 63 ≤ (first + Int64.ofNat (size * q)).toInt + (Int64.ofNat w.blocksPerFile).toInt by omega) (by omega)
  have hsub : Checked.sub above 1 = .ok (tileLast first size q) := by
    rw [Checked.sub_eq_ok_iff, Int64.toInt_one]
    omega
  exact bind_eq_ok_iff.2 ⟨above, habove, bind_eq_ok_iff.2 ⟨_, hsub, rfl⟩⟩

/-- A batch is open or is begun. -/
theorem Written.ready (h : Written chain first size q r w f) (hfirst : 1 ≤ first.toInt)
    (hroom : first.toInt + (size * (q + 1) : Nat) ≤ 10 ^ 12) :
    w.ready (.folder f) w.nextHeight =
      .ok (⟨openName (tileLast first size q), stretch chain (first + Int64.ofNat (size * q)) r⟩,
        .folder (tiling chain first size q ++ [(openName (tileLast first size q), .packed "")])) := by
  have hsize : 1 ≤ size := Nat.lt_of_le_of_lt (Nat.zero_le r) h.lt_size
  have hcurrent := h.current_eq
  have hfolder := h.folder_eq
  by_cases hr : r = 0
  · rw [if_pos hr] at hcurrent hfolder
    rw [List.append_nil] at hfolder
    have hfresh : ∀ e ∈ tiling chain first size q, e.1 ≠ openName (tileLast first size q) :=
      ne_openName_of_mem_tiling _
    have hnext := h.next_eq
    rw [hr, Nat.add_zero] at hnext
    unfold Writer.ready Writer.create?
    rw [hcurrent, hfolder, hnext, nameFor_tile h.size_eq hfirst hsize hroom]
    dsimp only
    rw [get?_eq_none_of_forall hfresh]
    dsimp only
    rw [put_of_forall hfresh, hr]
    rfl
  · rw [if_neg hr] at hcurrent hfolder
    unfold Writer.ready
    rw [hcurrent, hfolder]

/-- A full batch becomes the next tile. -/
theorem publish_tile (hfirst : 1 ≤ first.toInt) (hsize : 1 ≤ size)
    (hroom : first.toInt + (size * (q + 1) : Nat) ≤ 10 ^ 12) :
    Writer.publish ⟨openName (tileLast first size q), stretch chain (first + Int64.ofNat (size * q)) size⟩
        (tileLast first size q) (.folder (tiling chain first size q ++ [(openName (tileLast first size q), .packed "")])) =
      (.ok (), .folder (tiling chain first size (q + 1))) := by
  have hopen : ∀ e ∈ tiling chain first size q, e.1 ≠ openName (tileLast first size q) :=
    ne_openName_of_mem_tiling _
  have hclosed : ∀ e ∈ tiling chain first size q, e.1 ≠ batchName (tileLast first size q) :=
    ne_batchName_of_mem_tiling hfirst hsize hroom
  have hnew : Folder.get? (tiling chain first size q ++ [(openName (tileLast first size q), .packed "")])
      (batchName (tileLast first size q)) = none := by
    refine get?_eq_none_of_forall fun e he => ?_
    rcases List.mem_append.1 he with he | he
    · exact hclosed e he
    · rw [List.mem_singleton.1 he]
      exact (batchName_ne_openName _ _).symm
  unfold Writer.publish
  dsimp only
  rw [get?_concat hopen, hnew, erase_concat hopen, put_of_forall hclosed, tiling_succ]
  rfl

/-- **One block**: it is appended, and the batch is published if it is full. -/
theorem Written.append (h : Written chain first size q r w f) (hfirst : 1 ≤ first.toInt)
    (hheight : (chain w.nextHeight).height = w.nextHeight) (hroom : first.toInt + (size * (q + 1) : Nat) ≤ 10 ^ 12) :
    ∃ q' r' w' f', w.append (.folder f) (chain w.nextHeight) = (.ok (), w', .folder f') ∧
      size * q' + r' = size * q + r + 1 ∧ w'.nextHeight = w.nextHeight + 1 ∧ Written chain first size q' r' w' f' := by
  have hsize : 1 ≤ size := Nat.lt_of_le_of_lt (Nat.zero_le r) h.lt_size
  have hr := h.lt_size
  have hmul : size * (q + 1) = size * q + size := Nat.mul_succ size q
  have hnext := h.toInt_nextHeight hfirst (by omega)
  have habove : w.nextHeight + 1 = first + Int64.ofNat (size * q + r + 1) := by
    rw [h.next_eq, Int64.ofNat_add _ 1, ← Int64.add_assoc]
    rfl
  have hadd : Checked.add w.nextHeight 1 = .ok (w.nextHeight + 1) := by
    rw [Checked.add_eq_ok_iff, habove, Node.toInt_add_ofNat (by omega) (by omega), hnext, Int64.toInt_one]
    omega
  have hblock : stretch chain (first + Int64.ofNat (size * q)) r ++ [chain w.nextHeight] =
      stretch chain (first + Int64.ofNat (size * q)) (r + 1) := by
    rw [stretch_succ, h.next_eq, Int64.ofNat_add, ← Int64.add_assoc]
  have hlength : (stretch chain (first + Int64.ofNat (size * q)) (r + 1)).length = r + 1 := by simp [stretch]
  have hsizeof := h.size_eq
  unfold Writer.append
  rw [if_neg (fun hne => hne hheight), hheight, h.ready hfirst hroom]
  dsimp only
  rw [hadd, hblock, hlength]
  dsimp only
  by_cases hfull : r + 1 < size
  · rw [if_pos (by rw [hsizeof]; exact hfull)]
    refine ⟨q, r + 1, _, _, rfl, rfl, rfl, hsizeof, habove, hfull, ?_, ?_⟩
    · rw [if_neg (Nat.succ_ne_zero r)]
    · rw [if_neg (Nat.succ_ne_zero r)]
  · rw [if_neg (by rw [hsizeof]; exact hfull)]
    have hlast : r + 1 = size := by omega
    have hheight' : w.nextHeight = tileLast first size q := by
      rw [h.next_eq, tileLast, show size - 1 = r by omega]
    rw [hlast, hheight', publish_tile hfirst hsize hroom]
    refine ⟨q + 1, 0, _, _, rfl, by omega, rfl, hsizeof, ?_, hsize, rfl, (List.append_nil _).symm⟩
    rw [← hheight', habove, hmul, ← hlast]
    rfl

/-- The blocks of a chain from a height on: each has its height, and its time is one of the calendar. -/
structure Chained (chain : Int64 → Block) (first : Int64) : Prop where
  height_eq : ∀ h : Int64, first.toInt ≤ h.toInt → (chain h).height = h
  isValid : ∀ h : Int64, first.toInt ≤ h.toInt → (chain h).timestamp.IsValid

/-- **Blocks in a row**: all of them are appended. -/
theorem Written.appendAll (h : Written chain first size q r w f) (hfirst : 1 ≤ first.toInt) (hchain : Chained chain first)
    {n : Nat} (hroom : first.toInt + (size * q + r + n : Nat) + size ≤ 10 ^ 12) :
    ∃ q' r' w' f', w.appendAll (.folder f) (stretch chain w.nextHeight n) = (.ok (), w', .folder f') ∧
      size * q' + r' = size * q + r + n ∧ Written chain first size q' r' w' f' := by
  induction n generalizing q r w f with
  | zero => exact ⟨q, r, w, f, rfl, rfl, h⟩
  | succ n ih =>
    have hmul : size * (q + 1) = size * q + size := Nat.mul_succ size q
    have hnext := h.toInt_nextHeight hfirst (by omega)
    obtain ⟨q', r', w', f', happend, hcount, hnext', h'⟩ :=
      h.append hfirst (hchain.height_eq _ (by omega)) (by omega)
    obtain ⟨q'', r'', w'', f'', hrest, hcount', h''⟩ := ih h' (by omega)
    rw [hnext'] at hrest
    refine ⟨q'', r'', w'', f'', ?_, by omega, h''⟩
    rw [stretch_cons, Writer.appendAll, happend]
    exact hrest

end

/-! ### Opening -/

/-- A session goes on right behind the last tile. -/
theorem resumeHeight_tiling (hsize : 1 ≤ size) (q : Nat) :
    resumeHeight ((List.range q).map (tileBatch first size)) first = first + Int64.ofNat (size * q) := by
  cases q with
  | zero => exact (Int64.add_zero first).symm
  | succ q =>
    have hlast : tileLast first size q + 1 = first + Int64.ofNat (size * (q + 1)) := by
      rw [tileLast, show size * (q + 1) = size * q + (size - 1) + 1 by rw [Nat.mul_succ]; omega, Int64.ofNat_add _ 1,
        ← Int64.add_assoc]
      rfl
    rw [resumeHeight, lastHeight?, List.range_succ, List.map_append, List.map_singleton, List.getLast?_concat]
    exact hlast

section

variable (hfirst : 1 ≤ first.toInt) (hsize : 1 ≤ size)

include hfirst hsize

theorem discard_tiling {q : Nat} (hroom : first.toInt + (size * q : Nat) ≤ 10 ^ 12) :
    discard (tiling chain first size q) = tiling chain first size q :=
  List.filter_eq_self.2 fun e he => by simp [isOpenName_of_mem_tiling hfirst hsize hroom e he]

theorem any_isStuck_tiling {q : Nat} (hroom : first.toInt + (size * q : Nat) ≤ 10 ^ 12) :
    (tiling chain first size q).any isStuck = false :=
  List.any_eq_false.2 fun e he => by simp [isStuck, isOpenName_of_mem_tiling hfirst hsize hroom e he]

theorem batches_tiling {q : Nat} (hroom : first.toInt + (size * q : Nat) ≤ 10 ^ 12) :
    batches (tiling chain first size q) = (List.range q).map (tileBatch first size) := by
  have hnames : (tiling chain first size q).names.filterMap batch? = (List.range q).map (tileBatch first size) := by
    induction q with
    | zero => rfl
    | succ q ih =>
      have hmul : size * (q + 1) = size * q + size := Nat.mul_succ size q
      have hlast := toInt_tileLast hfirst hsize hroom
      have hbatch : batch? (batchName (tileLast first size q)) = some (tileBatch first size q) :=
        batch?_batchName (by omega) (by omega)
      have hfront := ih (by omega)
      unfold Folder.names at hfront ⊢
      rw [tiling_succ, List.map_append, List.filterMap_append, hfront, List.range_succ, List.map_append]
      exact congrArg _ (List.filterMap_cons_some hbatch)
  have hsorted : ((List.range q).map (tileBatch first size)).Pairwise
      fun a b => decide (a.lastHeight.toInt ≤ b.lastHeight.toInt) = true := by
    refine List.pairwise_map.2 (List.Pairwise.imp_of_mem ?_ List.pairwise_lt_range)
    intro i j hi hj hij
    have hlast := tileLast_lt hfirst hsize (List.mem_range.1 hi) hroom
    have hlast' := tileLast_lt hfirst hsize (List.mem_range.1 hj) hroom
    have hmul : size * (i + 1) ≤ size * (j + 1) := Nat.mul_le_mul_left size (by omega)
    refine decide_eq_true ?_
    show (tileLast first size i).toInt ≤ (tileLast first size j).toInt
    omega
  rw [batches, hnames, List.mergeSort_of_pairwise hsorted]

end

/-! ### Reading -/

/-- The heights of a batch. -/
def tileHeights (first : Int64) (size i : Nat) : List Int64 :=
  (List.range size).map fun j => first + Int64.ofNat (size * i + j)

/-- A block of the tiles as a reader hands it out: the last one of a batch closes it. -/
def flagged (chain : Int64 → Block) (first : Int64) (size : Nat) (h : Int64) : Archived :=
  ⟨chain h, decide ((h.toInt - first.toInt + 1) % size = 0)⟩

theorem stretch_tile (i : Nat) :
    stretch chain (first + Int64.ofNat (size * i)) size = (tileHeights first size i).map chain := by
  simp [stretch, tileHeights, Int64.ofNat_add, Int64.add_assoc]

/-- Side by side the batches cover every height once. -/
theorem flatMap_tileHeights (q : Nat) :
    (List.range q).flatMap (tileHeights first size) = (List.range (size * q)).map fun t => first + Int64.ofNat t := by
  induction q with
  | zero => rfl
  | succ q ih =>
    rw [List.range_succ, List.flatMap_append, ih, List.flatMap_singleton, Nat.mul_succ, List.range_add, List.map_append,
      List.map_map]
    rfl

theorem toInt_of_mem_tileHeights (hfirst : 1 ≤ first.toInt) {i : Nat} (hroom : first.toInt + (size * (i + 1) : Nat) ≤ 10 ^ 12) {h : Int64}
    (hh : h ∈ tileHeights first size i) : ∃ j < size, h.toInt = first.toInt + (size * i + j : Nat) := by
  rw [Nat.mul_succ] at hroom
  obtain ⟨j, hj, rfl⟩ := List.mem_map.1 hh
  have hj := List.mem_range.1 hj
  exact ⟨j, hj, Node.toInt_add_ofNat (by omega) (by omega)⟩

section

variable (hfirst : 1 ≤ first.toInt) (hsize : 1 ≤ size)

include hfirst hsize

/-- The last height of a batch is the one at which a multiple of the size is complete. -/
theorem eq_tileLast_iff {i : Nat} (hroom : first.toInt + (size * (i + 1) : Nat) ≤ 10 ^ 12) {h : Int64}
    (hh : h ∈ tileHeights first size i) : h = tileLast first size i ↔ (h.toInt - first.toInt + 1) % size = 0 := by
  obtain ⟨j, hj, hheight⟩ := toInt_of_mem_tileHeights hfirst hroom hh
  have hlast := toInt_tileLast hfirst hsize hroom
  have hmul : size * (i + 1) = size * i + size := Nat.mul_succ size i
  have hcount : h.toInt - first.toInt + 1 = (size * i + (j + 1) : Nat) := by omega
  rw [hcount, ← Int.natCast_emod, Nat.mul_add_mod, ← Int64.toInt_inj]
  constructor
  · intro hsame
    rw [show j + 1 = size by omega, Nat.mod_self]
    rfl
  · intro hzero
    have hfull : ¬ j + 1 < size := by
      intro hlt
      rw [Nat.mod_eq_of_lt hlt] at hzero
      omega
    omega

/-- What a reader takes from the text of a tile. -/
theorem ofLine?_tile (hchain : Chained chain first) {i : Nat} (hroom : first.toInt + (size * (i + 1) : Nat) ≤ 10 ^ 12)
    (wanted : Int64) :
    ((stretch chain (first + Int64.ofNat (size * i)) size).map fun b => b.render.toList).filterMap
        (Reader.ofLine? wanted (tileLast first size i)) =
      ((tileHeights first size i).filter fun h => wanted.toInt ≤ h.toInt).map (flagged chain first size) := by
  have htake : ∀ h ∈ tileHeights first size i, Reader.ofLine? wanted (tileLast first size i) (chain h).render.toList =
      if decide (wanted.toInt ≤ h.toInt) then some (flagged chain first size h) else none := by
    intro h hh
    obtain ⟨j, -, hheight⟩ := toInt_of_mem_tileHeights hfirst hroom hh
    have hlow : first.toInt ≤ h.toInt := by omega
    have hcloses : decide (h = tileLast first size i) = decide ((h.toInt - first.toInt + 1) % size = 0) :=
      decide_eq_decide.2 (eq_tileLast_iff hfirst hsize hroom hh)
    rw [ofLine?_render (hchain.isValid h hlow), hchain.height_eq h hlow, hcloses, flagged]
    by_cases hwanted : h.toInt < wanted.toInt
    · rw [if_pos hwanted, if_neg (by simpa using hwanted)]
    · rw [if_neg hwanted, if_pos (by simpa using hwanted)]
  rw [stretch_tile, List.map_map, List.filterMap_map, ← List.filterMap_eq_map, List.filterMap_filter]
  refine List.filterMap_congr fun h hh => ?_
  simp only [Function.comp_apply]
  exact htake h hh

variable {f : Folder} {q : Nat}

/-- **What is ahead of a reader of tiles**: from the height that it is asked for the blocks of all heights. -/
theorem ahead_tiles (hchain : Chained chain first) (hroom : first.toInt + (size * q : Nat) ≤ 10 ^ 12)
    (hfiles : ∀ i < q, f.get? (batchName (tileLast first size i)) = some (tile chain first size i).2) (wanted : Int64) :
    Reader.ahead (.folder f) wanted (.ofBatches ((List.range q).map (tileBatch first size)) wanted) =
      (Node.heights (Checked.larger wanted first) (first - 1 + Int64.ofNat (size * q))).map
        (flagged chain first size) := by
  have hroom' : ∀ i < q, first.toInt + (size * (i + 1) : Nat) ≤ 10 ^ 12 := by
    intro i hi
    have hmul : size * (i + 1) ≤ size * q := Nat.mul_le_mul_left size hi
    omega
  have htile : ∀ i < q, (Reader.linesOf (.folder f) (tileBatch first size i)).filterMap
      (Reader.ofLine? wanted (tileBatch first size i).lastHeight) =
        ((tileHeights first size i).filter fun h => wanted.toInt ≤ h.toInt).map (flagged chain first size) := by
    intro i hi
    have hopen : Reader.open? (.folder f) (tileBatch first size i).name = some (tile chain first size i).2 := hfiles i hi
    unfold Reader.linesOf
    rw [hopen]
    dsimp only [tile]
    rw [lines_text]
    exact ofLine?_tile hfirst hsize hchain (hroom' i hi) wanted
  -- the batches that are left out have nothing to give
  have hlow : ∀ i ∈ List.range q, decide (wanted.toInt ≤ (tileLast first size i).toInt) = false →
      ((tileHeights first size i).filter fun h => wanted.toInt ≤ h.toInt).map (flagged chain first size) = [] := by
    intro i hi hout
    have hlast := toInt_tileLast hfirst hsize (hroom' i (List.mem_range.1 hi))
    rw [Nat.mul_succ] at hlast
    rw [List.map_eq_nil_iff, List.filter_eq_nil_iff]
    intro h hh
    obtain ⟨j, hj, hheight⟩ := toInt_of_mem_tileHeights hfirst (hroom' i (List.mem_range.1 hi)) hh
    simp only [decide_eq_false_iff_not, decide_eq_true_eq] at hout ⊢
    omega
  have hend : (first - 1 + Int64.ofNat (size * q)).toInt = first.toInt + (size * q : Nat) - 1 := by
    have hbelow : (first - 1).toInt = first.toInt - 1 := by
      rw [Int64.toInt_sub, Int64.toInt_one]
      exact Int.bmod_eq_of_le (by omega) (by omega)
    rw [Node.toInt_add_ofNat (by omega) (by omega), hbelow]
    omega
  have hheights := Node.heights_eq_map hend
  rw [← flatMap_tileHeights] at hheights
  rw [← Node.filter_heights wanted (by omega), hheights, List.filter_flatMap, List.map_flatMap]
  unfold Reader.ahead Reader.ofBatches
  dsimp only
  rw [List.nil_append, List.filter_map, List.flatMap_map, ← flatMap_filter_of_nil hlow]
  refine List.flatMap_congr fun i hi => ?_
  exact htile i (List.mem_range.1 (List.mem_filter.1 hi).1)

end

end PoolIndexer.Archive
