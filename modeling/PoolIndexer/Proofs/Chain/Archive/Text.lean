import PoolIndexer.Chain.Archive.Writer
import PoolIndexer.Proofs.Block.Json
import PoolIndexer.Proofs.Chain.Archive.Reader
import PoolIndexer.Proofs.Text.Blank

/-!
# Proofs.Chain.Archive.Text — what is written as a batch is read as its blocks

* `lines_text`: the text of a batch has one line for each block.
* `ofLine?_render`: of such a line a reader takes the block, unless it is too low.
* `readable_text`, `allReadable_of_texts`: all lines of a batch are readable, and those of a folder.
-/

namespace PoolIndexer.Archive

/-! ### Lines -/

theorem newline_ne_of_mem_render {b : Block} {c : Char} (h : c ∈ b.render.toList) : decide (c = '\n') = false := by
  have hlow := Block.le_of_mem_render h
  refine decide_eq_false ?_
  rintro rfl
  exact absurd hlow (by decide)

theorem toList_text (bs : List Block) : (Writer.text bs).toList = bs.flatMap fun b => b.render.toList ++ ['\n'] := by
  induction bs with
  | nil => rfl
  | cons b bs ih =>
    unfold Writer.text at ih ⊢
    rw [String.toList_join] at ih ⊢
    rw [List.map_cons, List.flatMap_cons, ih, String.toList_append, List.flatMap_cons]
    rfl

theorem splitOn_text (bs : List Block) :
    Text.splitOn (fun c => decide (c = '\n')) (Writer.text bs).toList = bs.map (fun b => b.render.toList) ++ [[]] := by
  induction bs with
  | nil =>
    rw [toList_text]
    rfl
  | cons b bs ih =>
    have hrest : (Writer.text (b :: bs)).toList = b.render.toList ++ '\n' :: (Writer.text bs).toList := by
      rw [toList_text, toList_text, List.flatMap_cons, List.append_assoc]
      rfl
    rw [hrest, Text.splitOn_append rfl (fun c hc => newline_ne_of_mem_render hc), ih, List.map_cons, List.cons_append]

/-- **One line for each block.** -/
theorem lines_text (bs : List Block) :
    Reader.lines (Writer.text bs).toList = bs.map fun b => b.render.toList := by
  unfold Reader.lines
  rw [splitOn_text]
  dsimp only
  rw [List.getLast?_concat, if_pos rfl, List.dropLast_concat]

/-! ### Blocks -/

theorem isBlankLine_render (b : Block) : Reader.isBlankLine b.render.toList = false := by
  have hfront : ∃ cs, b.render.toList = '\x7b' :: cs := by
    rw [Block.render, Json.render, String.toList_ofList]
    exact ⟨_, rfl⟩
  obtain ⟨cs, hcs⟩ := hfront
  rw [hcs]
  rfl

/-- A written block is read, unless it is below the height that is asked for. -/
theorem ofLine?_render {b : Block} (h : b.timestamp.IsValid) (first lastHeight : Int64) :
    Reader.ofLine? first lastHeight b.render.toList =
      if b.height.toInt < first.toInt then none else some ⟨b, decide (b.height = lastHeight)⟩ := by
  unfold Reader.ofLine?
  rw [isBlankLine_render, if_neg Bool.false_ne_true, String.ofList_toList, Block.parse?_render h]

theorem readable_text {P : Block → Prop} {bs : List Block} (hvalid : ∀ b ∈ bs, b.timestamp.IsValid)
    (hbs : ∀ b ∈ bs, P b) : ∀ line ∈ Reader.lines (Writer.text bs).toList, Readable P line := by
  intro line hline
  rw [lines_text] at hline
  obtain ⟨b, hb, rfl⟩ := List.mem_map.1 hline
  refine .inr ⟨b, ?_, hbs b hb⟩
  rw [String.ofList_toList]
  exact Block.parse?_render (hvalid b hb)

/-- A folder whose batches are texts of blocks with the property. -/
theorem allReadable_of_texts {P : Block → Prop} {f : Folder}
    (h : ∀ b ∈ f.names.filterMap batch?, ∃ bs, f.get? b.name = some (.packed (Writer.text bs)) ∧
      ∀ b ∈ bs, b.timestamp.IsValid ∧ P b) : AllReadable P f := by
  intro b hb
  obtain ⟨bs, htext, hbs⟩ := h b (List.mem_mergeSort.1 hb)
  exact ⟨_, htext, readable_text (fun b hb => (hbs b hb).1) (fun b hb => (hbs b hb).2)⟩

end PoolIndexer.Archive
