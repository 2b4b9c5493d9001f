import Mathlib.Data.List.Basic
import PoolIndexer.Proofs.Chain.Archive.Names
import PoolIndexer.Proofs.Chain.Archive.Text

/-!
# Proofs.Chain.Archive.ReadBack — blocks that are written are read back

* `Bundle`: the blocks of one complete batch, and what a reader makes of them.
* `Listed done`: the folder lists the batches of these bundles and no others.
* `Stacked done rest`: a writer that has completed the bundles `done` and put `rest` into the open batch.
  Appending a block leads from one such state to another, whatever other files the folder has.
* `ahead_bundles`: a reader of the completed batches has all their blocks ahead of it.
* `blocks_readBack`: a block is one line that gives it back, and blocks in a row are read as they were written.
-/

namespace PoolIndexer.Archive

/-! ### Bundles -/

structure Bundle where
  front : List Block
  last : Block

namespace Bundle

def blocks (c : Bundle) : List Block := c.front ++ [c.last]

/-- A batch has the name of its last height. -/
def batch (c : Bundle) : Batch := ⟨batchName c.last.height, c.last.height⟩

/-- The blocks as a reader hands them out. -/
def archived (c : Bundle) : List Archived := c.blocks.map fun b => ⟨b, decide (b.height = c.last.height)⟩

/-- The bundle is a file of the folder. -/
def In (c : Bundle) (f : Folder) : Prop := f.get? c.batch.name = some (.packed (Writer.text c.blocks))

variable {c : Bundle} {f : Folder}

theorem In.put_of_ne (h : c.In f) {name : String} (hne : c.batch.name ≠ name) (item : Item) :
    c.In (f.put name item) := by
  unfold In at h ⊢
  rw [f.get?_put_of_ne item hne, h]

theorem In.erase_of_ne (h : c.In f) {name : String} (hne : c.batch.name ≠ name) : c.In (f.erase name) := by
  unfold In at h ⊢
  rw [f.get?_erase_of_ne hne, h]

end Bundle

/-! ### Folders of files -/

/-- No name leads to another folder. -/
def OnlyFiles (f : Folder) : Prop := ∀ name items, f.get? name ≠ some (.folder items)

theorem OnlyFiles.put_packed {f : Folder} (h : OnlyFiles f) (name text : String) :
    OnlyFiles (f.put name (.packed text)) := by
  intro other items
  by_cases hname : other = name
  · rw [hname, f.get?_put_self]
    simp
  · rw [f.get?_put_of_ne _ hname]
    exact h other items

theorem OnlyFiles.erase {f : Folder} (h : OnlyFiles f) (name : String) : OnlyFiles (f.erase name) := by
  intro other items
  by_cases hname : other = name
  · rw [hname, f.get?_erase_self]
    simp
  · rw [f.get?_erase_of_ne hname]
    exact h other items

/-! ### Lists of batches -/

/-- The batches that the folder lists are the bundles, apart from those whose names do not give back their heights. -/
def Listed (done : List Bundle) (f : Folder) : Prop :=
  f.names.filterMap batch? = done.filterMap fun c => batch? c.batch.name

namespace Listed

variable {done : List Bundle} {f : Folder}

theorem exists_bundle (h : Listed done f) {b : Batch} (hb : b ∈ f.names.filterMap batch?) :
    ∃ c ∈ done, b.name = c.batch.name := by
  rw [h] at hb
  obtain ⟨c, hc, hname⟩ := List.mem_filterMap.1 hb
  exact ⟨c, hc, name_of_batch? hname⟩

theorem put_open (h : Listed done f) (last : Int64) (item : Item) : Listed done (f.put (openName last) item) := by
  unfold Listed at h ⊢
  rw [listed_put (fun b hb => ne_openName_of_mem_listed hb last), batch?_of_isOpenName (isOpenName_openName last), h]
  exact List.append_nil _

/-- A complete bundle takes the place of an open batch. -/
theorem publish (h : Listed done f) (last : Int64) (c : Bundle) (hother : ∀ c' ∈ done, c'.batch.name ≠ c.batch.name)
    (item : Item) : Listed (done ++ [c]) ((f.erase (openName last)).put c.batch.name item) := by
  have herase : Listed done (f.erase (openName last)) :=
    (listed_erase fun b hb => ne_openName_of_mem_listed hb last).trans h
  have hnew : ∀ b ∈ (f.erase (openName last)).names.filterMap batch?, b.name ≠ c.batch.name := by
    intro b hb
    obtain ⟨c', hc', hname⟩ := herase.exists_bundle hb
    rw [hname]
    exact hother c' hc'
  unfold Listed at herase ⊢
  rw [listed_put hnew, herase, List.filterMap_append]
  cases hbatch : batch? c.batch.name <;> simp [hbatch]

/-- **What a reader finds**: the bundles in their order, if their heights take twelve digits. -/
theorem scan_eq (h : Listed done f) (hsorted : done.Pairwise fun c c' => c.last.height.toInt ≤ c'.last.height.toInt)
    (hrange : ∀ c ∈ done, 0 ≤ c.last.height.toInt ∧ c.last.height.toInt < 10 ^ 12) :
    scan (.folder f) = .ok (done.map Bundle.batch) := by
  have hall : (done.filterMap fun c => batch? c.batch.name) = done.map Bundle.batch := by
    rw [← List.filterMap_eq_map]
    exact List.filterMap_congr fun c hc => batch?_batchName (hrange c hc).1 (hrange c hc).2
  have horder : (done.map Bundle.batch).Pairwise fun a b => decide (a.lastHeight.toInt ≤ b.lastHeight.toInt) = true :=
    List.pairwise_map.2 (hsorted.imp fun hle => decide_eq_true hle)
  unfold scan batches
  dsimp only
  rw [h, hall, List.mergeSort_of_pairwise horder]

end Listed

/-! ### Writing -/

/-- The writer has completed the bundles `done`, and its open batch, if there is one, has the blocks `rest`. -/
structure Stacked (done : List Bundle) (rest : List Block) (w : Writer) (f : Folder) : Prop where
  files : ∀ c ∈ done, c.In f
  below : ∀ c ∈ done, c.last.height.toInt < w.nextHeight.toInt
  sorted : done.Pairwise fun c c' => c.last.height.toInt ≤ c'.last.height.toInt
  full : ∀ c ∈ done, c.blocks.length = w.blocksPerFile
  onlyFiles : OnlyFiles f
  none_open : w.current = none → rest = []
  some_open : ∀ o, w.current = some o → o.blocks = rest ∧ ∃ h, o.name = openName h ∧ (f.get? o.name).isSome = true
  lt_size : rest.length < w.blocksPerFile

namespace Stacked

variable {done : List Bundle} {rest : List Block} {w : Writer} {f : Folder}

theorem new (hcurrent : w.current = none) (hfiles : OnlyFiles f) : Stacked [] [] w f where
  files := fun _ hc => absurd hc List.not_mem_nil
  below := fun _ hc => absurd hc List.not_mem_nil
  sorted := .nil
  full := fun _ hc => absurd hc List.not_mem_nil
  onlyFiles := hfiles
  none_open := fun _ => rfl
  some_open := fun o ho => by cases hcurrent.symm.trans ho
  lt_size := w.one_le_blocksPerFile

theorem pending_eq (h : Stacked done rest w f) : w.pending = rest.length := by
  unfold Writer.pending
  cases hcurrent : w.current with
  | none => rw [h.none_open hcurrent]; rfl
  | some o => rw [← (h.some_open o hcurrent).1]; rfl

/-- A batch gets some name of an open batch. -/
theorem nameFor_ok (hsize : w.blocksPerFile < 2 ^ 63) {height : Int64}
    (hroom : height.toInt + w.blocksPerFile < 2 ^ 63) :
    ∃ last, w.nameFor height = .ok (openName last) := by
  have hlow := Int64.le_toInt height
  have hone := w.one_le_blocksPerFile
  have hcount : (Int64.ofNat w.blocksPerFile).toInt = w.blocksPerFile := Int64.toInt_ofNat_of_lt hsize
  obtain ⟨above, habove, habove'⟩ := Checked.exists_fit .add
    (show -2 ^ 63 ≤ height.toInt + (Int64.ofNat w.blocksPerFile).toInt by omega) (by omega)
  obtain ⟨last, hlast, -⟩ := Checked.exists_fit .subtract
    (show -2 ^ 63 ≤ above.toInt - (1 : Int64).toInt by rw [Int64.toInt_one]; omega) (by rw [Int64.toInt_one]; omega)
  exact ⟨last, bind_eq_ok_iff.2 ⟨above, habove, bind_eq_ok_iff.2 ⟨last, hlast, rfl⟩⟩⟩

/-- A batch is open or is begun, and the complete ones stay. -/
theorem ready (h : Stacked done rest w f) (hsize : w.blocksPerFile < 2 ^ 63) {height : Int64}
    (hroom : height.toInt + w.blocksPerFile < 2 ^ 63) :
    ∃ name f', w.ready (.folder f) height = .ok (⟨name, rest⟩, .folder f') ∧ (∃ h, name = openName h) ∧
      (f'.get? name).isSome = true ∧ OnlyFiles f' ∧ (Listed done f → Listed done f') ∧ ∀ c ∈ done, c.In f' := by
  unfold Writer.ready
  cases hcurrent : w.current with
  | some o =>
    obtain ⟨hrest, hname⟩ := h.some_open o hcurrent
    obtain ⟨last, hlast, hopen⟩ := hname
    exact ⟨o.name, f, by rw [← hrest], ⟨last, hlast⟩, hopen, h.onlyFiles, id, h.files⟩
  | none =>
    obtain ⟨last, hname⟩ := nameFor_ok hsize hroom
    have hcreate : Writer.create? (.folder f) (openName last) = some (f.put (openName last) (.packed "")) := by
      unfold Writer.create?
      cases hget : f.get? (openName last) with
      | none => simp [hget]
      | some item =>
        cases item with
        | folder items => exact absurd hget (h.onlyFiles _ items)
        | plain text => simp [hget]
        | packed text => simp [hget]
    simp only [hname, hcreate]
    refine ⟨openName last, _, by rw [h.none_open hcurrent], ⟨last, rfl⟩, ?_, h.onlyFiles.put_packed _ _,
      fun hlisted => hlisted.put_open last _, ?_⟩
    · rw [f.get?_put_self]
      rfl
    · exact fun c hc => (h.files c hc).put_of_ne (batchName_ne_openName _ _) _

/-- A full batch gets its final name. -/
theorem publish_ok {name : String} {blocks : List Block} {height : Int64} (hfiles : OnlyFiles f)
    (hname : (f.get? name).isSome = true) :
    Writer.publish ⟨name, blocks⟩ height (.folder f) =
      (.ok (), .folder ((f.erase name).put (batchName height) (.packed (Writer.text blocks)))) := by
  obtain ⟨item, hitem⟩ := Option.isSome_iff_exists.1 hname
  unfold Writer.publish
  simp only [hitem]
  cases hget : f.get? (batchName height) with
  | none => rfl
  | some other =>
    cases other with
    | folder items => exact absurd hget (hfiles _ items)
    | plain text => rfl
    | packed text => rfl

/-- The next bundle has a name of its own, so that those below are not overwritten. -/
theorem name_ne_of_mem (h : Stacked done rest w f) : ∀ c ∈ done, c.batch.name ≠ batchName w.nextHeight := by
  intro c hc hname
  have hsame : c.last.height = w.nextHeight := batchName_injective hname
  have hbelow := h.below c hc
  rw [hsame] at hbelow
  omega

section

variable {f' : Folder} {b : Block} {next last : Int64}

/-- The open batch has one block more. -/
theorem grow (h : Stacked done rest w f) (hnext : next.toInt = w.nextHeight.toInt + 1) (hfiles : OnlyFiles f')
    (hdone : ∀ c ∈ done, c.In f') (hexists : (f'.get? (openName last)).isSome = true)
    (hroom : (rest ++ [b]).length < w.blocksPerFile) :
    Stacked done (rest ++ [b]) { w with nextHeight := next, current := some ⟨openName last, rest ++ [b]⟩ } f' where
  files := hdone
  below := by
    intro c hc
    have hbelow := h.below c hc
    show c.last.height.toInt < next.toInt
    omega
  sorted := h.sorted
  full := h.full
  onlyFiles := hfiles
  none_open := fun hnone => by cases hnone
  some_open := fun o ho => by cases ho; exact ⟨rfl, last, rfl, hexists⟩
  lt_size := hroom

/-- The open batch is complete with one block more. -/
theorem complete (h : Stacked done rest w f) (hheight : b.height = w.nextHeight)
    (hnext : next.toInt = w.nextHeight.toInt + 1) (hfiles : OnlyFiles f') (hdone : ∀ c ∈ done, c.In f')
    (hfull : (rest ++ [b]).length = w.blocksPerFile) :
    Stacked (done ++ [⟨rest, b⟩]) [] { w with nextHeight := next, current := none }
      ((f'.erase (openName last)).put (batchName w.nextHeight) (.packed (Writer.text (rest ++ [b])))) where
  files := by
    refine List.forall_mem_append.2 ⟨fun c hc => ?_, List.forall_mem_singleton.2 ?_⟩
    · have herased := (hdone c hc).erase_of_ne (batchName_ne_openName c.last.height last)
      exact herased.put_of_ne (h.name_ne_of_mem c hc) _
    · rw [← hheight]
      exact Folder.get?_put_self _ _ _
  below := by
    refine List.forall_mem_append.2 ⟨fun c hc => ?_, List.forall_mem_singleton.2 ?_⟩
    · have hbelow := h.below c hc
      show c.last.height.toInt < next.toInt
      omega
    · show b.height.toInt < next.toInt
      rw [hheight]
      omega
  sorted := by
    refine List.pairwise_append.2 ⟨h.sorted, List.pairwise_singleton _ _, fun c hc => List.forall_mem_singleton.2 ?_⟩
    show c.last.height.toInt ≤ b.height.toInt
    rw [hheight]
    exact Int.le_of_lt (h.below c hc)
  full := List.forall_mem_append.2 ⟨h.full, List.forall_mem_singleton.2 hfull⟩
  onlyFiles := (hfiles.erase _).put_packed _ _
  none_open := fun _ => rfl
  some_open := fun o ho => by cases ho
  lt_size := w.one_le_blocksPerFile

end

/-- **One block**: it is appended, and completes a bundle if the batch is full. -/
theorem append (h : Stacked done rest w f) (hsize : w.blocksPerFile < 2 ^ 63) {b : Block}
    (hheight : b.height = w.nextHeight) (hroom : b.height.toInt + w.blocksPerFile < 2 ^ 63) :
    ∃ done' rest' w' f', w.append (.folder f) b = (.ok (), w', .folder f') ∧
      done'.flatMap Bundle.blocks ++ rest' = done.flatMap Bundle.blocks ++ rest ++ [b] ∧
      w'.blocksPerFile = w.blocksPerFile ∧ w'.nextHeight.toInt = w.nextHeight.toInt + 1 ∧
      (Listed done f → Listed done' f') ∧ Stacked done' rest' w' f' := by
  obtain ⟨name, f', hready, ⟨last, rfl⟩, hexists, hfiles, hlisted, hdone⟩ := h.ready hsize hroom
  have hone := w.one_le_blocksPerFile
  have hlow := Int64.le_toInt w.nextHeight
  obtain ⟨next, hadd, hnext⟩ : ∃ next, Checked.add w.nextHeight 1 = .ok next ∧ next.toInt = w.nextHeight.toInt + 1 := by
    rw [hheight] at hroom
    rw [← Int64.toInt_one]
    exact Checked.exists_fit .add (by rw [Int64.toInt_one]; omega) (by rw [Int64.toInt_one]; omega)
  unfold Writer.append
  simp only [hheight, ne_eq, not_true_eq_false, if_false]
  rw [hheight] at hready
  simp only [hready, hadd]
  by_cases hfull : (rest ++ [b]).length < w.blocksPerFile
  · rw [if_pos hfull]
    exact ⟨done, rest ++ [b], _, f', rfl, by rw [List.append_assoc], rfl, hnext, hlisted,
      h.grow hnext hfiles hdone hexists hfull⟩
  · rw [if_neg hfull, publish_ok hfiles hexists]
    have hlength : (rest ++ [b]).length = w.blocksPerFile := by
      have hlt := h.lt_size
      simp only [List.length_append, List.length_singleton] at hfull ⊢
      omega
    have hname : (⟨rest, b⟩ : Bundle).batch.name = batchName w.nextHeight := congrArg batchName hheight
    refine ⟨done ++ [⟨rest, b⟩], [], _, _, rfl, by simp [Bundle.blocks], rfl, hnext, fun hbefore => ?_,
      h.complete hheight hnext hfiles hdone hlength⟩
    have hother := h.name_ne_of_mem
    rw [← hname] at hother ⊢
    exact (hlisted hbefore).publish last ⟨rest, b⟩ hother _

/-- **Blocks in a row**: all of them are appended. -/
theorem appendAll (h : Stacked done rest w f) (hsize : w.blocksPerFile < 2 ^ 63) {bs : List Block}
    (hheights : ∀ (i : Nat) (b : Block), bs[i]? = some b → b.height.toInt = w.nextHeight.toInt + i)
    (hroom : w.nextHeight.toInt + bs.length + w.blocksPerFile ≤ 2 ^ 63) :
    ∃ done' rest' w' f', w.appendAll (.folder f) bs = (.ok (), w', .folder f') ∧
      done'.flatMap Bundle.blocks ++ rest' = done.flatMap Bundle.blocks ++ rest ++ bs ∧
      w'.blocksPerFile = w.blocksPerFile ∧ (Listed done f → Listed done' f') ∧ Stacked done' rest' w' f' := by
  induction bs generalizing done rest w f with
  | nil => exact ⟨done, rest, w, f, rfl, (List.append_nil _).symm, rfl, id, h⟩
  | cons b bs ih =>
    have hb := hheights 0 b rfl
    rw [List.length_cons] at hroom
    obtain ⟨done₁, rest₁, w₁, f₁, happend, hblocks, hcount, hnext, hlisted, h₁⟩ :=
      h.append hsize (Int64.toInt_inj.1 (by omega) : b.height = w.nextHeight) (by omega)
    have htail : ∀ (i : Nat) (b' : Block), bs[i]? = some b' → b'.height.toInt = w₁.nextHeight.toInt + i := by
      intro i b' hb'
      have := hheights (i + 1) b' (by simpa using hb')
      omega
    obtain ⟨done₂, rest₂, w₂, f₂, hrest, hblocks', hcount', hlisted', h₂⟩ := ih h₁ (by omega) htail (by omega)
    refine ⟨done₂, rest₂, w₂, f₂, ?_, ?_, hcount'.trans hcount, hlisted' ∘ hlisted, h₂⟩
    · rw [Writer.appendAll, happend]
      exact hrest
    · rw [hblocks', hblocks, List.append_assoc _ [b] bs, List.singleton_append]

end Stacked

/-! ### Reading -/

section

variable {done : List Bundle} {f : Folder} {wanted : Int64} (hfiles : ∀ c ∈ done, c.In f)
  (hvalid : ∀ c ∈ done, ∀ b ∈ c.blocks, b.timestamp.IsValid)

include hfiles hvalid

theorem sound_bundles : (Reader.ofBatches (done.map Bundle.batch) wanted).Sound (fun _ => True) (.folder f) := by
  refine ⟨.inl rfl, fun b hb => ?_⟩
  obtain ⟨c, hc, rfl⟩ := List.mem_map.1 (List.mem_filter.1 hb).1
  exact ⟨_, hfiles c hc, readable_text (hvalid c hc) fun _ _ => trivial⟩

/-- **What is ahead of a reader**: all blocks of the bundles, if none of them is too low. -/
theorem ahead_bundles (hlow : ∀ c ∈ done, ∀ b ∈ c.blocks, wanted.toInt ≤ b.height.toInt) :
    Reader.ahead (.folder f) wanted (.ofBatches (done.map Bundle.batch) wanted) = done.flatMap Bundle.archived := by
  have hall : (done.map Bundle.batch).filter (fun b => wanted.toInt ≤ b.lastHeight.toInt) = done.map Bundle.batch := by
    refine List.filter_eq_self.2 fun b hb => ?_
    obtain ⟨c, hc, rfl⟩ := List.mem_map.1 hb
    exact decide_eq_true (hlow c hc c.last (by simp [Bundle.blocks]))
  have hlines : ∀ c ∈ done, (Reader.linesOf (.folder f) c.batch).filterMap (Reader.ofLine? wanted c.batch.lastHeight) =
      c.archived := by
    intro c hc
    have hopen : Reader.open? (.folder f) c.batch.name = some (.packed (Writer.text c.blocks)) := hfiles c hc
    unfold Reader.linesOf
    simp only [hopen]
    rw [lines_text, List.filterMap_map, Bundle.archived, ← List.filterMap_eq_map]
    refine List.filterMap_congr fun b hb => ?_
    simp only [Function.comp_apply]
    rw [ofLine?_render (hvalid c hc b hb), if_neg (by have := hlow c hc b hb; omega)]
    rfl
  unfold Reader.ahead Reader.ofBatches
  dsimp only
  rw [hall, List.nil_append, List.flatMap_map]
  exact List.flatMap_congr hlines

end

/-! ### Written and read -/

/-- **Blocks as lines**: every block is a text without a line break, and if its time is one of the calendar, that
text gives it back.  So a writer that begins in a folder of files takes any blocks in a row, of whatever heights
there is room above; and of the batches that it has completed a reader hands out the same blocks in the same order,
which are all but those of the batch that is still open, and says of the last one of each batch that it closes it.
These are the batches that a reader finds in the folder, if it had none before and the heights take twelve digits. -/
theorem blocks_readBack :
    (∀ b : Block, (∀ c ∈ b.render.toList, c ≠ '\n' ∧ c ≠ '\r') ∧
      (b.timestamp.IsValid → Block.parse? b.render = some b)) ∧
    ∀ (w : Writer) (f : Folder) (bs : List Block), w.current = none → OnlyFiles f → w.blocksPerFile < 2 ^ 63 →
      (∀ (i : Nat) (b : Block), bs[i]? = some b → b.height.toInt = w.nextHeight.toInt + i) →
      w.nextHeight.toInt + bs.length + w.blocksPerFile ≤ 2 ^ 63 → (∀ b ∈ bs, b.timestamp.IsValid) →
      ∃ (done : List Bundle) (rest : List Block) (w' : Writer) (f' : Folder),
        w.appendAll (.folder f) bs = (.ok (), w', .folder f') ∧
        bs = done.flatMap Bundle.blocks ++ rest ∧ (∀ c ∈ done, c.blocks.length = w.blocksPerFile) ∧
        rest.length < w.blocksPerFile ∧ w'.pending = rest.length ∧
        (∀ wanted : Int64, wanted.toInt ≤ w.nextHeight.toInt → ∀ as,
          Yields (Reader.next (.folder f') wanted) (.ofBatches (done.map Bundle.batch) wanted) as ↔
            as = done.flatMap Bundle.archived) ∧
        (scan (.folder f) = .ok [] → 0 ≤ w.nextHeight.toInt → w.nextHeight.toInt + bs.length ≤ 10 ^ 12 →
          scan (.folder f') = .ok (done.map Bundle.batch)) := by
  refine ⟨fun b => ⟨fun c hc => ?_, fun hvalid => Block.parse?_render hvalid⟩, ?_⟩
  · have hlow := Block.le_of_mem_render hc
    constructor <;> rintro rfl <;> exact absurd hlow (by decide)
  · intro w f bs hcurrent hfiles hsize hheights hroom hvalid
    obtain ⟨done, rest, w', f', happend, hblocks, hcount, hlisted, h⟩ :=
      (Stacked.new hcurrent hfiles).appendAll hsize hheights hroom
    have hsplit : bs = done.flatMap Bundle.blocks ++ rest := hblocks.symm
    have hmem : ∀ c ∈ done, ∀ b ∈ c.blocks, b ∈ bs := by
      intro c hc b hb
      rw [hsplit]
      exact List.mem_append_left _ (List.mem_flatMap.2 ⟨c, hc, hb⟩)
    have hheight : ∀ c ∈ done, ∀ b ∈ c.blocks,
        w.nextHeight.toInt ≤ b.height.toInt ∧ b.height.toInt < w.nextHeight.toInt + bs.length := by
      intro c hc b hb
      obtain ⟨i, hi⟩ := List.mem_iff_getElem?.1 (hmem c hc b hb)
      have hvalue := hheights i b hi
      have hlt : i < bs.length := (List.getElem?_eq_some_iff.1 hi).1
      omega
    refine ⟨done, rest, w', f', happend, hsplit, fun c hc => (h.full c hc).trans hcount, hcount ▸ h.lt_size,
      h.pending_eq, fun wanted hwanted as => ?_, fun hempty hlow hhigh => ?_⟩
    · have hbundles : ∀ c ∈ done, ∀ b ∈ c.blocks, b.timestamp.IsValid := fun c hc b hb => hvalid b (hmem c hc b hb)
      have hsound : (Reader.ofBatches (done.map Bundle.batch) wanted).Sound (fun _ => True) (.folder f') :=
        sound_bundles h.files hbundles
      have hyields := Reader.yields_ahead wanted hsound
      rw [ahead_bundles h.files hbundles fun c hc b hb => Int.le_trans hwanted (hheight c hc b hb).1] at hyields
      exact ⟨fun has => has.unique hyields, fun has => has ▸ hyields⟩
    · have hnone : Listed [] f := by
        have hsort := congrArg List.length (Except.ok.inj hempty)
        rw [batches, List.length_mergeSort] at hsort
        exact List.eq_nil_of_length_eq_zero hsort
      refine (hlisted hnone).scan_eq h.sorted fun c hc => ?_
      obtain ⟨hge, hlt⟩ := hheight c hc c.last (by simp [Bundle.blocks])
      omega

def leapSecond : Instant := ⟨⟨2016, 12, 31⟩, 23, 59, 60, 120⟩

theorem isValid_leapSecond : leapSecond.IsValid := ⟨by decide, by decide, by decide, by decide, by decide⟩

/-- A block in a leap second whose texts have quotes, a backslash, line breaks and a character of two bytes. -/
def leap (height : Int64) : Block where
  height := height
  timestamp := leapSecond
  hash := [0, 171, 255]
  beginEvents := [⟨"a\"b\\", [⟨"line\n", "\r\t\x01 ß"⟩]⟩]
  txs := [⟨5, []⟩]
  endEvents := []

theorem blocks_readBack_leaps :
    Block.parse? (leap (-1)).render = some (leap (-1)) ∧
      ∃ (done : List Bundle) (rest : List Block) (w' : Writer) (f' : Folder),
        (Writer.ofSize 2 5).appendAll (.folder [("notes", .plain "x")]) [leap 5, leap 6, leap 7] =
          (.ok (), w', .folder f') ∧
        [leap 5, leap 6, leap 7] = done.flatMap Bundle.blocks ++ rest ∧ (∀ c ∈ done, c.blocks.length = 2) ∧
        rest.length < 2 ∧
        (∀ as, Yields (Reader.next (.folder f') 5) (.ofBatches (done.map Bundle.batch) 5) as ↔
          as = done.flatMap Bundle.archived) ∧
        scan (.folder f') = .ok (done.map Bundle.batch) := by
  obtain ⟨hline, hwritten⟩ := blocks_readBack
  have hfiles : OnlyFiles [("notes", .plain "x")] := by
    intro name items hitem
    by_cases hname : name = "notes"
    · subst hname
      cases hitem
    · simp [Folder.get?, List.lookup_cons, beq_eq_false_iff_ne.2 hname] at hitem
  have hheights : ∀ (i : Nat) (b : Block), [leap 5, leap 6, leap 7][i]? = some b →
      b.height.toInt = (Writer.ofSize 2 5).nextHeight.toInt + i := by
    rintro (_ | _ | _ | i) b hb <;> cases hb <;> rfl
  have hvalid : ∀ b ∈ [leap 5, leap 6, leap 7], b.timestamp.IsValid := by
    simp [leap, isValid_leapSecond]
  have hnone : scan (.folder [("notes", .plain "x")]) = .ok [] := by
    have hlisted : (Folder.names [("notes", .plain "x")]).filterMap batch? = [] := by decide
    simp [scan, batches, hlisted]
  obtain ⟨done, rest, w', f', happend, hsplit, hfull, hrest, -, hyields, hscan⟩ :=
    hwritten (Writer.ofSize 2 5) _ _ rfl hfiles (by decide) hheights (by decide) hvalid
  exact ⟨(hline _).2 isValid_leapSecond, done, rest, w', f', happend, hsplit, hfull, hrest,
    hyields 5 (Int.le_refl _), hscan hnone (by decide) (by decide)⟩

end PoolIndexer.Archive
