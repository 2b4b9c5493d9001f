import PoolIndexer.Chain.Archive.Reader
import PoolIndexer.Proofs.Basic

/-!
# Proofs.Chain.Archive.Reader — what a reader of readable batches hands out

* `Archive.Readable P`: a line that is blank or holds a block with the property `P`.
* `Reader.Sound P`: the open page and all waiting batches consist of such lines.
* `Reader.ahead`: the blocks that a reader has still to hand out, each with its flag.
* `Reader.next_cases`: a sound reader hands out the first of them and stays sound.
-/

namespace PoolIndexer.Archive

/-- The line is blank or holds a block that has the property. -/
def Readable (P : Block → Prop) (line : List Char) : Prop :=
  Reader.isBlankLine line = true ∨ ∃ b, Block.parse? (String.ofList line) = some b ∧ P b

namespace Reader

/-! ### Lines -/

/-- What a reader that wants blocks from `first` on takes from a line. -/
def ofLine? (first lastHeight : Int64) (line : List Char) : Option Archived :=
  if isBlankLine line then none
  else
    match Block.parse? (String.ofList line) with
    | none => none
    | some b => if b.height.toInt < first.toInt then none else some ⟨b, decide (b.height = lastHeight)⟩

/-- The lines of a batch; none if it cannot be unpacked. -/
def linesOf (p : Place) (b : Batch) : List (List Char) :=
  match open? p b.name with
  | some (.packed text) => lines text.toList
  | _ => []

/-- What the reader has still to hand out. -/
def ahead (p : Place) (first : Int64) (r : Reader) : List Archived :=
  (match r.page with
    | some (.lines rest lastHeight) => rest.filterMap (ofLine? first lastHeight)
    | _ => []) ++
  r.waiting.flatMap fun b => (linesOf p b).filterMap (ofLine? first b.lastHeight)

/-- All lines that the reader may come to are readable. -/
structure Sound (P : Block → Prop) (p : Place) (r : Reader) : Prop where
  page : r.page = none ∨ ∃ rest lastHeight, r.page = some (.lines rest lastHeight) ∧ ∀ line ∈ rest, Readable P line
  waiting : ∀ b ∈ r.waiting, ∃ text, open? p b.name = some (.packed text) ∧
    ∀ line ∈ lines text.toList, Readable P line

section

variable {P : Block → Prop} {p : Place}

theorem nextLine_cases (first lastHeight : Int64) : ∀ {ls : List (List Char)}, (∀ line ∈ ls, Readable P line) →
    (nextLine first lastHeight ls = .none ∧ ls.filterMap (ofLine? first lastHeight) = []) ∨
      ∃ a rest, nextLine first lastHeight ls = .block a rest ∧
        ls.filterMap (ofLine? first lastHeight) = a :: rest.filterMap (ofLine? first lastHeight) ∧
        (∀ line ∈ rest, Readable P line) ∧ P a.block ∧ first.toInt ≤ a.block.height.toInt := by
  intro ls
  induction ls with
  | nil => exact fun _ => .inl ⟨rfl, rfl⟩
  | cons line rest ih =>
    intro h
    obtain ⟨hline, hrest⟩ := List.forall_mem_cons.1 h
    by_cases hblank : isBlankLine line = true
    · have hskip : ofLine? first lastHeight line = none := by rw [ofLine?, if_pos hblank]
      rw [nextLine, if_pos hblank, List.filterMap_cons_none hskip]
      exact ih hrest
    · rcases hline with hline | ⟨b, hparse, hb⟩
      · exact absurd hline hblank
      · by_cases hlow : b.height.toInt < first.toInt
        · have hskip : ofLine? first lastHeight line = none := by
            rw [ofLine?, if_neg hblank, hparse]
            exact if_pos hlow
          rw [nextLine, if_neg hblank, hparse, List.filterMap_cons_none hskip]
          dsimp only
          rw [if_pos hlow]
          exact ih hrest
        · have htake : ofLine? first lastHeight line = some ⟨b, decide (b.height = lastHeight)⟩ := by
            rw [ofLine?, if_neg hblank, hparse]
            exact if_neg hlow
          refine .inr ⟨⟨b, decide (b.height = lastHeight)⟩, rest, ?_, ?_, hrest, hb, Int.not_lt.1 hlow⟩
          · rw [nextLine, if_neg hblank, hparse]
            exact if_neg hlow
          · exact List.filterMap_cons_some htake

/-! ### Batches -/

theorem nextBatch_cases (first : Int64) : ∀ {bs : List Batch}, Sound P p ⟨bs, none⟩ →
    (nextBatch p first bs = (.ok none, ⟨[], none⟩) ∧ ahead p first ⟨bs, none⟩ = []) ∨
      ∃ a r, nextBatch p first bs = (.ok (some a), r) ∧
        ahead p first ⟨bs, none⟩ = a :: ahead p first r ∧
        r.Sound P p ∧ P a.block ∧ first.toInt ≤ a.block.height.toInt := by
  intro bs
  induction bs with
  | nil => exact fun _ => .inl ⟨rfl, rfl⟩
  | cons b rest ih =>
    intro h
    obtain ⟨⟨text, hopen, hlines⟩, hrest⟩ := List.forall_mem_cons.1 h.waiting
    have hahead : ahead p first ⟨b :: rest, none⟩ =
        (lines text.toList).filterMap (ofLine? first b.lastHeight) ++ ahead p first ⟨rest, none⟩ := by
      show (linesOf p b).filterMap _ ++ _ = _
      unfold linesOf
      rw [hopen]
      rfl
    rw [nextBatch, hopen, hahead]
    dsimp only
    rcases nextLine_cases first b.lastHeight hlines with
      ⟨hnext, hnone⟩ | ⟨a, more, hnext, hsome, hmore, ha, hfirst⟩
    · rw [hnext, hnone]
      exact ih ⟨.inl rfl, hrest⟩
    · rw [hnext, hsome]
      exact .inr ⟨a, ⟨rest, some (.lines more b.lastHeight)⟩, rfl, rfl, ⟨.inr ⟨more, _, rfl, hmore⟩, hrest⟩, ha, hfirst⟩

/-- **One request**: a sound reader hands out the first block ahead of it, or it has come to the end. -/
theorem next_cases (first : Int64) {r : Reader} (h : r.Sound P p) :
    (∃ r', next p first r = (.ok none, r') ∧ ahead p first r = []) ∨
      ∃ a r', next p first r = (.ok (some a), r') ∧ ahead p first r = a :: ahead p first r' ∧
        r'.Sound P p ∧ P a.block ∧ first.toInt ≤ a.block.height.toInt := by
  obtain ⟨waiting, page⟩ := r
  have hclosed : Sound P p ⟨waiting, none⟩ := ⟨.inl rfl, h.waiting⟩
  have hbatch := nextBatch_cases first hclosed
  rcases h.page with hpage | ⟨rest, lastHeight, hpage, hlines⟩
  · cases hpage
    rcases hbatch with ⟨hnext, hnone⟩ | hsome
    · exact .inl ⟨_, hnext, hnone⟩
    · exact .inr hsome
  · cases hpage
    have hahead : ahead p first ⟨waiting, some (.lines rest lastHeight)⟩ =
        rest.filterMap (ofLine? first lastHeight) ++ ahead p first ⟨waiting, none⟩ := rfl
    unfold next
    rw [hahead]
    dsimp only
    rcases nextLine_cases first lastHeight hlines with
      ⟨hnext, hnone⟩ | ⟨a, more, hnext, hsome, hmore, ha, hfirst⟩
    · rw [hnext, hnone]
      rcases hbatch with ⟨hnext, hnone⟩ | hsome
      · exact .inl ⟨_, hnext, hnone⟩
      · exact .inr hsome
    · rw [hnext, hsome]
      exact .inr ⟨a, ⟨waiting, some (.lines more lastHeight)⟩, rfl, rfl, ⟨.inr ⟨more, _, rfl, hmore⟩, h.waiting⟩, ha, hfirst⟩

/-- **Reading to the end**: a sound reader hands out everything ahead of it. -/
theorem yields_ahead (first : Int64) {r : Reader} (h : r.Sound P p) : Yields (next p first) r (ahead p first r) := by
  generalize hahead : ahead p first r = as
  induction as generalizing r with
  | nil =>
    rcases next_cases first h with ⟨r', hnext, -⟩ | ⟨a, r', -, hsome, -⟩
    · exact .stop hnext
    · cases hahead.symm.trans hsome
  | cons a as ih =>
    rcases next_cases first h with ⟨r', -, hnone⟩ | ⟨a', r', hnext, hsome, hsound, -⟩
    · cases hahead.symm.trans hnone
    · obtain ⟨rfl, rfl⟩ := List.cons.inj (hahead.symm.trans hsome)
      exact .more hnext (ih hsound rfl)

end

end Reader

/-! ### Folders -/

/-- All batches of the folder can be unpacked, and all their lines are readable. -/
def AllReadable (P : Block → Prop) (f : Folder) : Prop :=
  ∀ b ∈ batches f, ∃ text, f.get? b.name = some (.packed text) ∧
    ∀ line ∈ Reader.lines text.toList, Readable P line

theorem Reader.sound_ofBatches {P : Block → Prop} {f : Folder} (h : AllReadable P f) (first : Int64) :
    (Reader.ofBatches (batches f) first).Sound P (.folder f) :=
  ⟨.inl rfl, fun b hb => h b (List.mem_filter.1 hb).1⟩

end PoolIndexer.Archive
