import PoolIndexer.Proofs.Chain.Archive.Sessions

/-!
# Proofs.Chain.Archive.Complete — a batch that is there goes on up to the height of its name

A writer gives a batch its final name when the block of that height has come, and what it has put before are
the blocks below, one after the other.  Whatever was cut off or lost, a batch that is still there has no gap at
its end.  So a reader that has handed out one of its blocks, and not the last one, has the next one at hand.

* `RunsUpTo last bs`: blocks of consecutive heights, the last of them `last`.
* `Complete p`: all batches of the place are texts of such blocks.
* `Produced p`: what sessions of writers leave, however they end, and whatever files are lost.
* `Reader.AtHand`: the open page goes on with the block of that height.
* `Reader.intact_next`: what a reader of complete batches does at one request.
-/

namespace PoolIndexer

/-! ### Blocks in a row -/

/-- Blocks of the heights from `next` on, each with a time of the calendar. -/
def InRow : Int → List Block → Prop
  | _, [] => True
  | next, b :: rest => b.height.toInt = next ∧ b.timestamp.IsValid ∧ InRow (next + 1) rest

theorem InRow.append_singleton {next : Int} {bs : List Block} {b : Block} (h : InRow next bs)
    (hheight : b.height.toInt = next + bs.length) (hvalid : b.timestamp.IsValid) : InRow next (bs ++ [b]) := by
  induction bs generalizing next with
  | nil => exact ⟨by simpa using hheight, hvalid, trivial⟩
  | cons b' rest ih =>
    refine ⟨h.1, h.2.1, ih h.2.2 ?_⟩
    rw [hheight, List.length_cons]
    omega

namespace Archive

/-- Blocks of the heights up to `last`. -/
def RunsUpTo (last : Int64) (bs : List Block) : Prop := InRow (last.toInt - bs.length + 1) bs

namespace RunsUpTo

variable {last : Int64} {b : Block} {rest : List Block}

theorem head (h : RunsUpTo last (b :: rest)) : b.height.toInt + rest.length = last.toInt := by
  have hheight : b.height.toInt = last.toInt - (b :: rest).length + 1 := h.1
  rw [List.length_cons] at hheight
  omega

theorem tail (h : RunsUpTo last (b :: rest)) : RunsUpTo last rest := by
  have hrest : InRow (last.toInt - (b :: rest).length + 1 + 1) rest := h.2.2
  unfold RunsUpTo
  rwa [show last.toInt - rest.length + 1 = last.toInt - (b :: rest).length + 1 + 1 by
    rw [List.length_cons]
    omega]

theorem valid (h : RunsUpTo last (b :: rest)) : b.timestamp.IsValid := h.2.1

/-- Below the last height there is one more block. -/
theorem exists_next (h : RunsUpTo last (b :: rest)) (hlast : b.height ≠ last) :
    ∃ b' more, rest = b' :: more ∧ b'.height.toInt = b.height.toInt + 1 := by
  have hhead := h.head
  cases rest with
  | nil =>
    refine absurd (Int64.toInt_inj.1 ?_) hlast
    simpa using hhead
  | cons b' more =>
    have hhead' := h.tail.head
    rw [List.length_cons] at hhead
    exact ⟨b', more, rfl, by omega⟩

end RunsUpTo

/-! ### Complete batches -/

/-- A file with the name of a batch has blocks up to the height that the name says. -/
def Complete (p : Place) : Prop :=
  ∀ (name : String) (last : Int64) (item : Item), heightOf? name = some last → Reader.open? p name = some item →
    ∃ bs, item = .packed (Writer.text bs) ∧ RunsUpTo last bs

theorem heightOf?_of_isOpenName {name : String} (h : isOpenName name = true) : heightOf? name = none :=
  Option.map_eq_none_iff.1 (batch?_of_isOpenName h)

theorem complete_absent : Complete .absent := nofun

theorem complete_empty : Complete (.folder []) := nofun

namespace Complete

variable {f : Folder}

theorem erase (h : Complete (.folder f)) (name : String) : Complete (.folder (f.erase name)) := by
  intro other last item hlast hitem
  have hitem' : (f.erase name).get? other = some item := hitem
  by_cases hname : other = name
  · rw [hname, f.get?_erase_self] at hitem'
    cases hitem'
  · rw [f.get?_erase_of_ne hname] at hitem'
    exact h other last item hlast hitem'

theorem discard (h : Complete (.folder f)) : Complete (.folder (discard f)) := by
  intro name last item hlast hitem
  have hclosed : isOpenName name = false := by
    refine Bool.eq_false_iff.2 fun hopen => ?_
    rw [heightOf?_of_isOpenName hopen] at hlast
    cases hlast
  have hitem' : (Archive.discard f).get? name = some item := hitem
  rw [get?_discard f hclosed] at hitem'
  exact h name last item hlast hitem'

/-- What stands under the name of an unfinished batch does not matter. -/
theorem put_open (h : Complete (.folder f)) {name : String} (hopen : isOpenName name = true) (item : Item) :
    Complete (.folder (f.put name item)) := by
  intro other last item' hlast hitem
  have hname : other ≠ name := by
    rintro rfl
    rw [heightOf?_of_isOpenName hopen] at hlast
    cases hlast
  have hitem' : (f.put name item).get? other = some item' := hitem
  rw [f.get?_put_of_ne item hname] at hitem'
  exact h other last item' hlast hitem'

theorem put_batch (h : Complete (.folder f)) {last : Int64} {bs : List Block} (hbs : RunsUpTo last bs) :
    Complete (.folder (f.put (batchName last) (.packed (Writer.text bs)))) := by
  intro name last' item hlast hitem
  have hitem' : (f.put (batchName last) (.packed (Writer.text bs))).get? name = some item := hitem
  by_cases hname : name = batchName last
  · rw [hname] at hlast hitem'
    rw [f.get?_put_self] at hitem'
    cases hitem'
    rw [eq_of_heightOf?_batchName hlast]
    exact ⟨bs, rfl, hbs⟩
  · rw [f.get?_put_of_ne _ hname] at hitem'
    exact h name last' item hlast hitem'

end Complete

/-! ### Writers -/

/-- The open batch of a writer has the blocks below its next height, and no final name yet. -/
structure Writer.Coherent (w : Writer) : Prop where
  named : ∀ o, w.current = some o → isOpenName o.name = true
  row : ∀ o, w.current = some o → InRow (w.nextHeight.toInt - o.blocks.length) o.blocks

theorem Writer.coherent_of_closed {w : Writer} (h : w.current = none) : w.Coherent := by
  refine ⟨fun o ho => ?_, fun o ho => ?_⟩
  · cases h.symm.trans ho
  · cases h.symm.trans ho

/-- What appending leaves behind; after an overflow the writer is not used again. -/
structure Writer.Leaves (result : Except (Stop ChainError) Unit) (w : Writer) (p : Place) : Prop where
  complete : Complete p
  named : ∀ o, w.current = some o → isOpenName o.name = true
  coherent : (∀ fault, result ≠ .error (.overflow fault)) → w.Coherent

namespace Writer

variable {w : Writer} {p p' : Place} {b : Block} {o : OpenBatch}

theorem Coherent.leaves (h : w.Coherent) (hp : Complete p) (result : Except (Stop ChainError) Unit) :
    Leaves result w p :=
  ⟨hp, h.named, fun _ => h⟩

theorem complete_create {name : String} {f : Folder} (hp : Complete p) (hopen : isOpenName name = true)
    (h : create? p name = some f) : Complete (.folder f) := by
  unfold create? at h
  split at h
  · split at h
    · cases h
    · cases h
      exact hp.put_open hopen _
  · cases h

/-- The batch that a block goes into has the blocks right below it. -/
theorem complete_ready {height : Int64} (hw : w.Coherent) (hp : Complete p)
    (h : w.ready p height = .ok (o, p')) :
    Complete p' ∧ isOpenName o.name = true ∧ InRow (w.nextHeight.toInt - o.blocks.length) o.blocks := by
  unfold ready at h
  cases hcurrent : w.current with
  | some o' =>
    rw [hcurrent] at h
    cases h
    exact ⟨hp, hw.named o hcurrent, hw.row o hcurrent⟩
  | none =>
    rw [hcurrent] at h
    dsimp only at h
    cases hname : w.nameFor height with
    | error fault =>
      rw [hname] at h
      cases h
    | ok name =>
      obtain ⟨above, -, habove⟩ := bind_eq_ok_iff.1 hname
      obtain ⟨last, -, hlast⟩ := bind_eq_ok_iff.1 habove
      cases hlast
      have hopen := isOpenName_openName last
      rw [hname] at h
      dsimp only at h
      cases hcreate : create? p (openName last) with
      | none =>
        rw [hcreate] at h
        cases h
      | some f =>
        rw [hcreate] at h
        cases h
        exact ⟨complete_create hp hopen hcreate, hopen, trivial⟩

theorem complete_publish {last : Int64} (hp : Complete p) (hopen : isOpenName o.name = true)
    (hblocks : RunsUpTo last o.blocks) : Complete (publish o last p).2 := by
  unfold publish
  split
  · split
    · exact hp
    · exact hp.put_open hopen _
    · exact (hp.erase _).put_batch hblocks
  · exact hp

/-- **One block**: the batches that are there stay complete, and so is the one that gets its name. -/
theorem leaves_append (hw : w.Coherent) (hp : Complete p) (hvalid : b.timestamp.IsValid) :
    Leaves (w.append p b).1 (w.append p b).2.1 (w.append p b).2.2 := by
  unfold append
  by_cases hheight : b.height = w.nextHeight
  · rw [if_neg (fun hne => hne hheight)]
    cases hready : w.ready p b.height with
    | error e => exact hw.leaves hp _
    | ok made =>
      obtain ⟨o, p'⟩ := made
      obtain ⟨hp', hopen, hrow⟩ := complete_ready hw hp hready
      have hlength : ((o.blocks ++ [b]).length : Int) = o.blocks.length + 1 := by simp
      have hrow' : InRow (w.nextHeight.toInt - o.blocks.length) (o.blocks ++ [b]) :=
        hrow.append_singleton (by rw [hheight]; omega) hvalid
      dsimp only
      cases hadd : Checked.add w.nextHeight 1 with
      | error fault =>
        refine ⟨hp', fun o' ho' => ?_, fun hne => absurd rfl (hne fault)⟩
        cases ho'
        exact hopen
      | ok next =>
        have hnext : next.toInt = w.nextHeight.toInt + 1 := Checked.add_eq_ok_iff.1 hadd
        dsimp only
        split
        · refine Coherent.leaves ⟨fun o' ho' => ?_, fun o' ho' => ?_⟩ hp' _
          · cases ho'
            exact hopen
          · cases ho'
            show InRow (next.toInt - (o.blocks ++ [b]).length) (o.blocks ++ [b])
            rwa [hlength, hnext, show w.nextHeight.toInt + 1 - (o.blocks.length + 1 : Int) =
              w.nextHeight.toInt - o.blocks.length by omega]
        · have hruns : RunsUpTo b.height (o.blocks ++ [b]) := by
            unfold RunsUpTo
            rwa [hlength, hheight, show w.nextHeight.toInt - (o.blocks.length + 1 : Int) + 1 =
              w.nextHeight.toInt - o.blocks.length by omega]
          have hpublish : Complete (publish { o with blocks := o.blocks ++ [b] } b.height p').2 :=
            complete_publish hp' hopen hruns
          exact (coherent_of_closed rfl).leaves hpublish _
  · rw [if_pos hheight]
    exact hw.leaves hp _

theorem leaves_appendAll {bs : List Block} (hw : w.Coherent) (hp : Complete p)
    (hvalid : ∀ b ∈ bs, b.timestamp.IsValid) :
    Leaves (w.appendAll p bs).1 (w.appendAll p bs).2.1 (w.appendAll p bs).2.2 := by
  induction bs generalizing w p with
  | nil => exact hw.leaves hp _
  | cons b rest ih =>
    obtain ⟨hb, hrest⟩ := List.forall_mem_cons.1 hvalid
    have hleaves := leaves_append hw hp hb
    unfold appendAll
    cases happend : w.append p b with
    | mk result after =>
      rw [happend] at hleaves
      cases result with
      | ok _ => exact ih (hleaves.coherent fun fault hfault => by cases hfault) hleaves.complete hrest
      | error stop => exact hleaves

theorem Leaves.abandon {result : Except (Stop ChainError) Unit} (h : Leaves result w p) (torn : Item) :
    Complete (w.abandon torn p) := by
  unfold Writer.abandon
  split
  · split
    · rename_i o hcurrent
      exact h.complete.put_open (h.named o hcurrent) torn
    · exact h.complete
  · exact h.complete

end Writer

/-! ### What sessions leave -/

theorem complete_openForWriting {p : Place} (h : Complete p) : Complete (openForWriting p).2 := by
  unfold openForWriting
  split
  · exact complete_empty
  · split
    · exact h
    · exact h.discard
  · exact h

/-- One session of a writer: the place is opened, any blocks are appended up to the first failure, and something
is left of the batch that is being written. -/
def Writer.session (size : Nat) (first : Int64) (blocks : List Block) (torn : Item) (p : Place) : Place :=
  match openForWriting p with
  | (.error _, p) => p
  | (.ok bs, p) =>
    let (_, w, p) := (Writer.ofSize size (resumeHeight bs first)).appendAll p blocks
    w.abandon torn p

/-- A place where writers have been, one after the other, each with a size and blocks of its own; any files may
have been lost since. -/
inductive Produced : Place → Prop
  | absent : Produced .absent
  | session {p : Place} (h : Produced p) (size : Nat) (first : Int64) {blocks : List Block}
      (hvalid : ∀ b ∈ blocks, b.timestamp.IsValid) (torn : Item) :
      Produced (Writer.session size first blocks torn p)
  | lost {f : Folder} (h : Produced (.folder f)) (name : String) : Produced (.folder (f.erase name))

theorem Writer.complete_session {p : Place} (h : Complete p) (size : Nat) (first : Int64) {blocks : List Block}
    (hvalid : ∀ b ∈ blocks, b.timestamp.IsValid) (torn : Item) :
    Complete (Writer.session size first blocks torn p) := by
  have hopened := complete_openForWriting h
  unfold Writer.session
  cases hopen : openForWriting p with
  | mk result p' =>
    rw [hopen] at hopened
    cases result with
    | error e => exact hopened
    | ok bs => exact (leaves_appendAll (coherent_of_closed rfl) hopened hvalid).abandon torn

/-- **Sessions**: whatever writers have done, the batches that are there are complete. -/
theorem Produced.complete {p : Place} (h : Produced p) : Complete p := by
  induction h with
  | absent => exact complete_absent
  | session _ size first hvalid torn ih => exact Writer.complete_session ih size first hvalid torn
  | lost _ name ih => exact ih.erase name

/-! ### Readers -/

/-- The lines of blocks. -/
def blockLines (bs : List Block) : List (List Char) := bs.map fun b => b.render.toList

namespace Reader

/-- The open page has blocks up to a height that is not above `last`, and the waiting batches end there too. -/
structure Intact (last : Int64) (r : Reader) : Prop where
  page : r.page = none ∨ ∃ bs h, r.page = some (.lines (blockLines bs) h) ∧ RunsUpTo h bs ∧ h.toInt ≤ last.toInt
  waiting : ∀ b ∈ r.waiting, heightOf? b.name = some b.lastHeight ∧ b.lastHeight.toInt ≤ last.toInt

/-- The open page goes on with the block of that height. -/
def AtHand (last next : Int64) (r : Reader) : Prop :=
  ∃ b rest h, r.page = some (.lines (blockLines (b :: rest)) h) ∧ RunsUpTo h (b :: rest) ∧ h.toInt ≤ last.toInt ∧
    b.height = next

/-- A reader that has just handed out a block. -/
structure Gave (last : Int64) (a : Archived) (r : Reader) : Prop where
  valid : a.block.timestamp.IsValid
  intact : r.Intact last
  atHand : a.closes = false → ∀ next : Int64, next.toInt = a.block.height.toInt + 1 → r.AtHand last next

variable {last first : Int64} {p : Place}

theorem AtHand.le {next : Int64} {r : Reader} (h : r.AtHand last next) : next.toInt ≤ last.toInt := by
  obtain ⟨b, rest, height, -, hruns, hle, rfl⟩ := h
  have hhead := hruns.head
  omega

theorem nextLine_cons {b : Block} (hvalid : b.timestamp.IsValid) (first height : Int64) (rest : List Block) :
    nextLine first height (blockLines (b :: rest)) =
      if b.height.toInt < first.toInt then nextLine first height (blockLines rest)
      else .block ⟨b, decide (b.height = height)⟩ (blockLines rest) := by
  unfold blockLines
  rw [List.map_cons, nextLine, isBlankLine_render, if_neg Bool.false_ne_true, String.ofList_toList,
    Block.parse?_render hvalid]

/-- Complete lines hand out one of their blocks, or there is none from `first` on. -/
theorem nextLine_runs {height : Int64} {bs : List Block} (h : RunsUpTo height bs) (first : Int64) :
    nextLine first height (blockLines bs) = .none ∨
      ∃ b rest, nextLine first height (blockLines bs) = .block ⟨b, decide (b.height = height)⟩ (blockLines rest) ∧
        RunsUpTo height (b :: rest) := by
  induction bs with
  | nil => exact .inl rfl
  | cons b rest ih =>
    rw [nextLine_cons h.valid]
    split
    · exact ih h.tail
    · exact .inr ⟨b, rest, rfl, h⟩

/-- What is left on the page after one of its blocks. -/
theorem gave_of_runs {height : Int64} {b : Block} {rest : List Block} {waiting : List Batch}
    (h : RunsUpTo height (b :: rest)) (hle : height.toInt ≤ last.toInt)
    (hwaiting : ∀ b ∈ waiting, heightOf? b.name = some b.lastHeight ∧ b.lastHeight.toInt ≤ last.toInt) :
    Gave last ⟨b, decide (b.height = height)⟩ ⟨waiting, some (.lines (blockLines rest) height)⟩ := by
  refine ⟨h.valid, ⟨.inr ⟨rest, height, rfl, h.tail, hle⟩, hwaiting⟩, fun hopen next hnext => ?_⟩
  obtain ⟨b', more, rfl, hheight⟩ := h.exists_next (of_decide_eq_false hopen)
  exact ⟨b', more, height, rfl, h.tail, hle, Int64.toInt_inj.1 (hheight.trans hnext.symm)⟩

theorem intact_nextBatch (hp : Complete p) : ∀ {bs : List Batch},
    (∀ b ∈ bs, heightOf? b.name = some b.lastHeight ∧ b.lastHeight.toInt ≤ last.toInt) →
    (∃ e r, nextBatch p first bs = (.error e, r) ∧ r.Intact last) ∨ (∃ r, nextBatch p first bs = (.ok none, r)) ∨
      ∃ a r, nextBatch p first bs = (.ok (some a), r) ∧ r.Gave last a := by
  intro bs
  induction bs with
  | nil => exact fun _ => .inr (.inl ⟨_, rfl⟩)
  | cons b rest ih =>
    intro h
    obtain ⟨⟨hname, hle⟩, hrest⟩ := List.forall_mem_cons.1 h
    unfold nextBatch
    cases hopen : open? p b.name with
    | none => exact .inl ⟨broken, _, rfl, .inl rfl, hrest⟩
    | some item =>
      obtain ⟨blocks, rfl, hruns⟩ := hp _ _ _ hname hopen
      have hlines : lines (Writer.text blocks).toList = blockLines blocks := lines_text blocks
      dsimp only
      rw [hlines]
      rcases nextLine_runs hruns first with hnone | ⟨b', more, hsome, hruns'⟩
      · rw [hnone]
        exact ih hrest
      · rw [hsome]
        exact .inr (.inr ⟨_, _, rfl, gave_of_runs hruns' hle hrest⟩)

/-- **One request**: an intact reader stays intact, and what it has not finished is at hand. -/
theorem intact_next (first : Int64) (hp : Complete p) {r : Reader} (h : r.Intact last) :
    (∃ e r', next p first r = (.error e, r') ∧ r'.Intact last) ∨ (∃ r', next p first r = (.ok none, r')) ∨
      ∃ a r', next p first r = (.ok (some a), r') ∧ r'.Gave last a := by
  obtain ⟨waiting, page⟩ := r
  unfold next
  rcases h.page with hpage | ⟨bs, height, hpage, hruns, hle⟩
  · cases hpage
    exact intact_nextBatch hp h.waiting
  · cases hpage
    dsimp only
    rcases nextLine_runs hruns first with hnone | ⟨b, rest, hsome, hruns'⟩
    · rw [hnone]
      exact intact_nextBatch hp h.waiting
    · rw [hsome]
      exact .inr (.inr ⟨_, _, rfl, gave_of_runs hruns' hle h.waiting⟩)

/-- What is at hand is handed out, whatever has become of the archive. -/
theorem next_of_atHand {r : Reader} (h : r.AtHand last first) :
    ∃ a r', next p first r = (.ok (some a), r') ∧ a.block.height = first := by
  obtain ⟨b, rest, height, hpage, hruns, -, rfl⟩ := h
  unfold next
  rw [hpage]
  dsimp only
  rw [nextLine_cons hruns.valid, if_neg (Int.lt_irrefl _)]
  exact ⟨_, _, rfl, rfl⟩

/-! ### New readers -/

/-- The batches of a folder in their order, none above the last one. -/
theorem intact_ofBatches {f : Folder} {last : Int64} (hlast : lastHeight? (batches f) = some last) (first : Int64) :
    (ofBatches (batches f) first).Intact last := by
  refine ⟨.inl rfl, fun b hb => ?_⟩
  have hmem : b ∈ batches f := (List.mem_filter.1 hb).1
  obtain ⟨name, -, hbatch⟩ := List.mem_filterMap.1 (List.mem_mergeSort.1 hmem)
  obtain ⟨height, hheight, rfl⟩ := Option.map_eq_some_iff.1 hbatch
  refine ⟨hheight, ?_⟩
  obtain ⟨top, htop, rfl⟩ := Option.map_eq_some_iff.1 hlast
  have hsorted : (batches f).Pairwise fun a b => decide (a.lastHeight.toInt ≤ b.lastHeight.toInt) = true :=
    List.pairwise_mergeSort (fun a b c hab hbc => by simp only [decide_eq_true_eq] at *; omega)
      (fun a b => by simp only [Bool.or_eq_true, decide_eq_true_eq]; omega) _
  obtain ⟨front, hfront⟩ := List.getLast?_eq_some_iff.1 htop
  rw [hfront] at hmem hsorted
  rcases List.mem_append.1 hmem with hmem | hmem
  · exact of_decide_eq_true ((List.pairwise_append.1 hsorted).2.2 _ hmem _ (List.mem_singleton.2 rfl))
  · have hsame := congrArg (fun b : Batch => b.lastHeight.toInt) (List.mem_singleton.1 hmem)
    exact Int.le_of_eq hsame

/-- A new reader of what a scan has found, if it has found anything. -/
theorem intact_ofScan {bs : List Batch} {last : Int64} (hscan : scan p = .ok bs) (hlast : lastHeight? bs = some last)
    (first : Int64) : (ofBatches bs first).Intact last := by
  unfold scan at hscan
  split at hscan
  · cases hscan
    exact intact_ofBatches hlast first
  · cases hscan
  · cases hscan
    cases hlast
  · cases hscan
    cases hlast

end Reader

end Archive

end PoolIndexer
