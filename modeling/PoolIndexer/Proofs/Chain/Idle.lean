import PoolIndexer.Proofs.Chain.Archive.Complete
import PoolIndexer.Proofs.Chain.Delivery
import PoolIndexer.Proofs.Ingest.Attempts
import PoolIndexer.Proofs.Ingest.Pending
import PoolIndexer.Proofs.Ingest.Tolerance

/-!
# Proofs.Chain.Idle — when there is nothing new, everything has been committed

The flag of the last block tells an ingestor to commit.  If a block was handed out without it, the block after
it has been fetched already: it stands on the open page of the archive or in the buffer.  So the next request
comes back with that block, whatever has become of archive and node, and not with the news that there is none.

* `Cursor.AtHand`: the next block has been fetched.
* `Cursor.answers_next`: what one request leaves at hand.
* `Feed.Careful`: a fetcher whose last message has the flag, or whose cursor has the next block at hand.
* `Fetcher.idle_committed`: while a fetcher finds nothing new, an ingestor that has consumed its messages holds
  nothing back.
-/

namespace PoolIndexer

variable {σ : Type}

/-! ### Answers of a node -/

theorem Node.inRow_of_heights {low high : Int64} {bs : List Block} (h : bs.map Block.height = heights low high)
    (hvalid : ∀ b ∈ bs, b.timestamp.IsValid) : InRow low.toInt bs := by
  induction bs generalizing low with
  | nil => trivial
  | cons b rest ih =>
    obtain ⟨hb, hrest⟩ := List.forall_mem_cons.1 hvalid
    rw [List.map_cons] at h
    have hle : low.toInt ≤ high.toInt := by
      refine Int.not_lt.1 fun hlt => ?_
      rw [heights_of_lt hlt] at h
      cases h
    by_cases hlow : low = high
    · rw [← hlow, heights_self] at h
      obtain ⟨hheight, hnone⟩ := List.cons.inj h
      cases List.map_eq_nil_iff.1 hnone
      exact ⟨congrArg Int64.toInt hheight, hb, trivial⟩
    · have hlt : low.toInt < high.toInt :=
        Int.lt_iff_le_and_ne.2 ⟨hle, fun heq => hlow (Int64.toInt_inj.1 heq)⟩
      have hmin := Int64.le_toInt low
      have hmax := Int64.toInt_lt high
      obtain ⟨next, -, hnext⟩ := Checked.exists_fit .add (show -2 ^ 63 ≤ low.toInt + 1 by omega) (by omega)
      rw [heights_of_le hle hnext] at h
      obtain ⟨hheight, hmore⟩ := List.cons.inj h
      exact ⟨congrArg Int64.toInt hheight, hb, hnext ▸ ih hmore hrest⟩

/-! ### Cursors -/

namespace Cursor

/-- A cursor without an end that has come to where it is by reading complete batches and buffers. -/
structure Intact (c : Cursor) : Prop where
  endless : c.lastHeight = none
  archive : ∀ reader last, c.archive = some (reader, last) → reader.Intact last ∧ c.buffer = []
  buffer : InRow c.nextHeight.toInt c.buffer

/-- The next block is on the open page of the archive, or the archive is done with and it is in the buffer. -/
def AtHand (c : Cursor) : Prop :=
  match c.archive with
  | some (reader, last) => reader.AtHand last c.nextHeight
  | none => c.buffer ≠ []

/-- What a request may come back with: a block, and if it is not flagged, the one after it is at hand; or nothing,
but only if nothing was at hand. -/
inductive Answers (c : Cursor) : Except NoAnswer Block → Cursor → Prop
  | block {b : Block} {c' : Cursor} (hvalid : b.timestamp.IsValid) (hintact : c'.Intact)
      (hflag : c'.atBatchEnd = true ∨ c'.AtHand) : Answers c (.ok b) c'
  | overflow (o : Overflow) (c' : Cursor) : Answers c (.error (.overflow o)) c'
  | nothing {why : NoAnswer} {c' : Cursor} (hintact : c'.Intact) (hidle : ¬ c.AtHand) : Answers c (.error why) c'

variable {c : Cursor} {p : Place}

theorem atHand_iff_reader {reader : Archive.Reader} {last : Int64} (harchive : c.archive = some (reader, last)) :
    c.AtHand ↔ reader.AtHand last c.nextHeight := by
  unfold AtHand
  rw [harchive]

theorem atHand_of_buffer (harchive : c.archive = none) (hbuffer : c.buffer ≠ []) : c.AtHand := by
  unfold AtHand
  rw [harchive]
  exact hbuffer

theorem not_atHand_of_empty (harchive : c.archive = none) (hbuffer : c.buffer = []) : ¬ c.AtHand := by
  unfold AtHand
  rw [harchive]
  exact fun hsome => hsome hbuffer

/-- A block of the next height is handed out, unless there is no height after it. -/
theorem deliver_cases {b : Block} (hheight : b.height = c.nextHeight) (closes : Bool) (origin : Origin) :
    (∃ o, c.deliver b closes origin = (.error (.overflow o), c)) ∨
      ∃ next, next.toInt = c.nextHeight.toInt + 1 ∧ c.deliver b closes origin =
        (.ok b, { c with nextHeight := next, atBatchEnd := closes, origin := some origin }) := by
  unfold deliver
  rw [if_neg (fun hne => hne hheight)]
  cases hadd : Checked.add c.nextHeight 1 with
  | error o => exact .inl ⟨o, rfl⟩
  | ok next => exact .inr ⟨next, Checked.add_eq_ok_iff.1 hadd, rfl⟩

/-- What the archive may come back with; if it is left, nothing that was at hand is lost. -/
inductive ArchiveAnswers (c : Cursor) : Except NoAnswer (Option Block) → Cursor → Prop
  | block {b : Block} {c' : Cursor} (h : c.Answers (.ok b) c') : ArchiveAnswers c (.ok (some b)) c'
  | error {why : NoAnswer} {c' : Cursor} (h : c.Answers (.error why) c') : ArchiveAnswers c (.error why) c'
  | left {c' : Cursor} (hintact : c'.Intact) (harchive : c'.archive = none) (hidle : c.AtHand → c'.AtHand) :
      ArchiveAnswers c (.ok none) c'

theorem Answers.archived {result : Except NoAnswer Block} {c' : Cursor} (h : c.Answers result c') :
    c.ArchiveAnswers (result.map some) c' := by
  cases result with
  | ok b => exact .block h
  | error why => exact .error h

/-- A cursor with nothing more at hand than another may come back with the same. -/
theorem Answers.of_atHand {result : Except NoAnswer Block} {c₀ c' : Cursor} (h : c.Answers result c')
    (hat : c₀.AtHand → c.AtHand) : c₀.Answers result c' := by
  cases h with
  | block hvalid hintact hflag => exact .block hvalid hintact hflag
  | overflow o => exact .overflow o c'
  | nothing hintact hidle => exact .nothing hintact fun hat₀ => hidle (hat hat₀)

/-- Without its archive a cursor is as good as before, if the archive has nothing at hand. -/
theorem archiveAnswers_none (hc : c.Intact) {reader : Archive.Reader} {last : Int64}
    (harchive : c.archive = some (reader, last)) (hidle : ¬ reader.AtHand last c.nextHeight) :
    c.ArchiveAnswers (.ok none) { c with archive := none } :=
  .left ⟨hc.endless, nofun, hc.buffer⟩ rfl fun hat => absurd ((atHand_iff_reader harchive).1 hat) hidle

/-- What the archive hands out, with a reader that has just given it. -/
theorem answers_gave (hc : c.Intact) (hbuffer : c.buffer = []) {a : Archive.Archived} {reader : Archive.Reader}
    {last : Int64} (hgave : reader.Gave last a) (hheight : a.block.height = c.nextHeight) :
    let answer := { c with archive := some (reader, last) }.deliver a.block a.closes .archive
    c.Answers answer.1 answer.2 := by
  intro answer
  rcases deliver_cases (c := { c with archive := some (reader, last) }) hheight a.closes .archive with
    ⟨o, hdeliver⟩ | ⟨next, hnext, hdeliver⟩
  · rw [show answer = _ from hdeliver]
    exact .overflow o _
  · rw [show answer = _ from hdeliver]
    refine .block hgave.valid ⟨hc.endless, fun r l hrl => ?_, ?_⟩ ?_
    · cases hrl
      exact ⟨hgave.intact, hbuffer⟩
    · show InRow next.toInt c.buffer
      rw [hbuffer]
      trivial
    · cases hcloses : a.closes with
      | true => exact .inl rfl
      | false => exact .inr (hgave.atHand hcloses next (by rw [hnext, hheight]))

theorem answers_fromArchive (hp : Archive.Complete p) (hc : c.Intact) :
    c.ArchiveAnswers (c.fromArchive p).1 (c.fromArchive p).2 := by
  unfold fromArchive
  cases harchive : c.archive with
  | none => exact .left hc harchive id
  | some open? =>
    obtain ⟨reader, last⟩ := open?
    obtain ⟨hreader, hbuffer⟩ := hc.archive reader last harchive
    dsimp only
    by_cases hlast : last.toInt < c.nextHeight.toInt
    · rw [if_pos hlast]
      refine archiveAnswers_none hc harchive fun hat => ?_
      have hle := hat.le
      omega
    · rw [if_neg hlast]
      -- what is at hand is handed out, so every other answer says that nothing is
      have hsome : reader.AtHand last c.nextHeight →
          ∃ a r, reader.next p c.nextHeight = (.ok (some a), r) ∧ a.block.height = c.nextHeight :=
        Archive.Reader.next_of_atHand
      rcases Archive.Reader.intact_next c.nextHeight hp hreader with
        ⟨e, reader', hnext, hreader'⟩ | ⟨reader', hnext⟩ | ⟨a, reader', hnext, hgave⟩
      · rw [hnext] at hsome ⊢
        refine .error (.nothing ⟨hc.endless, fun r l hrl => ?_, hc.buffer⟩ fun hat => ?_)
        · cases hrl
          exact ⟨hreader', hbuffer⟩
        · obtain ⟨a, r, hanswer, -⟩ := hsome ((atHand_iff_reader harchive).1 hat)
          cases hanswer
      · rw [hnext] at hsome ⊢
        refine archiveAnswers_none hc harchive fun hat => ?_
        obtain ⟨a, r, hanswer, -⟩ := hsome hat
        cases hanswer
      · rw [hnext] at hsome ⊢
        dsimp only
        by_cases hheight : a.block.height = c.nextHeight
        · have hflag : (a.closes || decide (c.lastHeight = some a.block.height)) = a.closes := by
            rw [hc.endless]
            simp
          rw [if_neg (fun hne => hne hheight), hflag]
          exact (answers_gave hc hbuffer hgave hheight).archived
        · rw [if_pos hheight]
          refine archiveAnswers_none hc harchive fun hat => ?_
          obtain ⟨a', r, hanswer, hheight'⟩ := hsome hat
          cases hanswer
          exact hheight hheight'

section

variable {node : Node σ}

/-- A buffer that is not empty hands out its first block and keeps the others. -/
theorem answers_fromBuffer (hc : c.Intact) (harchive : c.archive = none) (hbuffer : c.buffer ≠ []) (c₀ : Cursor) :
    c₀.Answers c.fromBuffer.1 c.fromBuffer.2 := by
  have hrow := hc.buffer
  unfold fromBuffer
  cases hblocks : c.buffer with
  | nil => exact absurd hblocks hbuffer
  | cons b rest =>
    rw [hblocks] at hrow
    obtain ⟨hheight, hvalid, hrest⟩ := hrow
    dsimp only
    rcases deliver_cases (c := { c with buffer := rest }) (Int64.toInt_inj.1 hheight) rest.isEmpty .node with
      ⟨o, hdeliver⟩ | ⟨next, hnext, hdeliver⟩
    · rw [hdeliver]
      exact .overflow o _
    · rw [hdeliver]
      refine .block hvalid ⟨hc.endless, fun r l hrl => ?_, ?_⟩ ?_
      · cases harchive.symm.trans hrl
      · show InRow next.toInt rest
        rw [hnext]
        exact hrest
      · cases rest with
        | nil => exact .inl rfl
        | cons b' more => exact .inr (atHand_of_buffer harchive (List.cons_ne_nil _ _))

/-- An empty buffer is filled with the blocks from the next height on, or the node has none. -/
theorem fill_cases (hnode : node.Exact) (hc : c.Intact) (harchive : c.archive = none) (hbuffer : c.buffer = []) (s : σ) :
    (∃ why c' s', c.fill node s = (.error why, c', s') ∧ c'.Intact) ∨
      ∃ c' s', c.fill node s = (.ok (), c', s') ∧ c'.Intact ∧ c'.archive = none ∧ c'.buffer ≠ [] := by
  unfold fill
  cases hhead : node.head s with
  | mk result s' =>
    cases result with
    | error why => exact .inl ⟨why, c, s', rfl, hc⟩
    | ok head =>
      have hc' : ({ c with chainHeight := some head } : Cursor).Intact := ⟨hc.endless, hc.archive, hc.buffer⟩
      dsimp only
      cases hlast : ({ c with chainHeight := some head } : Cursor).lastWanted head with
      | error o => exact .inl ⟨.overflow o, _, s', rfl, hc'⟩
      | ok last =>
        dsimp only
        by_cases hlow : last.toInt < c.nextHeight.toInt
        · rw [if_pos hlow]
          exact .inl ⟨.error .noData, _, s', rfl, hc'⟩
        · rw [if_neg hlow]
          cases hblocks : node.blocks c.nextHeight last s' with
          | mk blocks s'' =>
            cases blocks with
            | error why => exact .inl ⟨why, _, s'', rfl, hc'⟩
            | ok bs =>
              obtain ⟨hheights, hvalid⟩ := hnode c.nextHeight last s' bs (congrArg Prod.fst hblocks)
              have hrow := Node.inRow_of_heights hheights hvalid
              have hfilled : c.buffer ++ bs = bs := by rw [hbuffer, List.nil_append]
              refine .inr ⟨_, s'', rfl, ⟨hc.endless, fun r l hrl => ?_, ?_⟩, harchive, ?_⟩
              · cases harchive.symm.trans hrl
              · show InRow c.nextHeight.toInt (c.buffer ++ bs)
                rwa [hfilled]
              · show c.buffer ++ bs ≠ []
                rw [hfilled]
                rintro rfl
                exact Node.heights_ne_nil (Int.not_lt.1 hlow) hheights.symm

theorem answers_fromNode (hnode : node.Exact) (hc : c.Intact) (harchive : c.archive = none) (s : σ) :
    c.Answers (c.fromNode node s).1 (c.fromNode node s).2.1 := by
  unfold fromNode
  by_cases hempty : c.buffer.isEmpty = true
  · rw [if_pos hempty]
    have hbuffer : c.buffer = [] := List.isEmpty_iff.1 hempty
    rcases fill_cases hnode hc harchive hbuffer s with ⟨why, c', s', hfill, hc'⟩ | ⟨c', s', hfill, hc', harchive', hsome⟩
    · rw [hfill]
      exact .nothing hc' (not_atHand_of_empty harchive hbuffer)
    · rw [hfill]
      exact answers_fromBuffer hc' harchive' hsome c
  · rw [if_neg hempty]
    exact answers_fromBuffer hc harchive (fun hbuffer => hempty (List.isEmpty_iff.2 hbuffer)) c

/-- **One request**: a block comes with the flag or leaves the next one at hand, and what is at hand is never
missed. -/
theorem answers_next (hnode : node.Exact) (hp : Archive.Complete p) (hc : c.Intact) (s : σ) :
    c.Answers (c.next node p s).1 (c.next node p s).2.1 := by
  have hpast : c.isPast = false := by
    unfold isPast
    rw [hc.endless]
  have harchive := answers_fromArchive hp hc
  unfold next
  rw [hpast, if_neg Bool.false_ne_true]
  cases hfrom : c.fromArchive p with
  | mk result c' =>
    rw [hfrom] at harchive
    cases harchive with
    | block h => exact h
    | error h => exact h
    | left hintact hnone hidle => exact (answers_fromNode hnode hintact hnone s).of_atHand hidle

/-- A new cursor has nothing at hand and nothing to lose. -/
theorem intact_start {p : Place} {batchSize : Nat} {first : Int64} (h : start p batchSize first none = .ok c) :
    c.Intact := by
  unfold start at h
  cases hscan : Archive.scan p with
  | error e =>
    rw [hscan] at h
    cases h
  | ok bs =>
    rw [hscan] at h
    cases h
    refine ⟨rfl, fun reader last harchive => ?_, trivial⟩
    unfold ofBatches at harchive
    dsimp only at harchive
    split at harchive
    · rename_i top htop
      split at harchive
      · cases harchive
        exact ⟨Archive.Reader.intact_ofScan hscan htop first, rfl⟩
      · cases harchive
    · cases harchive

end

end Cursor

/-! ### Fetchers -/

/-- The last message, if there is one, has the flag. -/
def Settled (sent : List BlockMessage) : Prop := ∀ m ∈ sent.getLast?, m.batchEnd = true

theorem settled_concat {sent : List BlockMessage} {m : BlockMessage} (h : m.batchEnd = true) :
    Settled (sent ++ [m]) := by
  intro m' hm'
  rw [List.getLast?_concat] at hm'
  cases hm'
  exact h

/-- What holds of the messages sent so far while a fetcher is in that phase. -/
def FetchPhase.Promises (sent : List BlockMessage) : FetchPhase → Prop
  | .reading c => c.Intact ∧ (Settled sent ∨ c.AtHand)
  | .offering c m => c.Intact ∧ (m.batchEnd = true ∨ c.AtHand)
  | .polling c _ => c.Intact ∧ Settled sent
  | .scanning | .failing _ => Settled sent
  | .hanging | .stopped | .broken => True

namespace Fetcher

/-- The node answers as it should, the batches of the archive are complete, and so are those that the fetcher will
add to them. -/
structure Supplied (r : Fetcher σ) : Prop where
  node : r.node.Exact
  place : Archive.Complete r.place
  writer : ∀ w, r.writer = some w → w.Coherent

/-- No block was the last one to be sent without its flag unless the next one is at hand. -/
structure Careful (sent : List BlockMessage) (r : Fetcher σ) : Prop extends r.Supplied where
  promises : r.phase.Promises sent

variable {r r' : Fetcher σ} {c c' : Cursor} {b : Block} {sent : List BlockMessage}

theorem supplied_writeThrough (h : r.Supplied) (hvalid : b.timestamp.IsValid) (hwrite : r.writeThrough b = .ok r') :
    r'.Supplied := by
  unfold writeThrough at hwrite
  cases hwriter : r.writer with
  | none =>
    rw [hwriter] at hwrite
    cases hwrite
    exact h
  | some w =>
    have hleaves := Archive.Writer.leaves_append (h.writer w hwriter) h.place hvalid
    rw [hwriter] at hwrite
    dsimp only at hwrite
    cases happend : w.append r.place b with
    | mk result after =>
      obtain ⟨w', place⟩ := after
      rw [happend] at hwrite hleaves
      rcases result with (o | e) | _
      · cases hwrite
      · cases hwrite
        exact ⟨h.node, hleaves.complete, nofun⟩
      · cases hwrite
        refine ⟨h.node, hleaves.complete, fun w'' hw'' => ?_⟩
        cases hw''
        exact hleaves.coherent nofun

/-- A block that is offered has the flag, or the next one is at hand. -/
theorem careful_offer (h : r.Supplied) (hvalid : b.timestamp.IsValid) (hc : c.Intact)
    (hflag : c.atBatchEnd = true ∨ c.AtHand) : (r.offer c b).queue = r.queue ∧ (r.offer c b).Careful sent := by
  have hready : ({ r with backoff := r.backoff.reset, phase := .offering c ⟨b, c.atBatchEnd⟩ } : Fetcher σ).Supplied :=
    ⟨h.node, h.place, h.writer⟩
  unfold offer
  dsimp only
  split
  · split
    · rename_i r' hwrite
      obtain ⟨hqueue, -, hphase⟩ := writeThrough_eq_ok hwrite
      refine ⟨hqueue, supplied_writeThrough hready hvalid hwrite, ?_⟩
      rw [hphase]
      exact ⟨hc, hflag⟩
    · exact ⟨rfl, ⟨h.node, h.place, h.writer⟩, trivial⟩
  · exact ⟨rfl, hready, hc, hflag⟩

/-- The answer to a request leaves nothing at hand only after a block with the flag. -/
theorem careful_react {result : Except NoAnswer Block} (h : r.Supplied) (hsettled : Settled sent ∨ c.AtHand)
    (hanswers : c.Answers result c') :
    (r.react c' result).queue = r.queue ∧ (r.react c' result).Careful sent := by
  cases hanswers with
  | block hvalid hintact hflag =>
    exact careful_offer (r := r.observe c') ⟨h.node, h.place, h.writer⟩ hvalid hintact hflag
  | overflow o => exact ⟨rfl, ⟨h.node, h.place, h.writer⟩, trivial⟩
  | @nothing why _ hintact hidle =>
    have hlast : Settled sent := hsettled.resolve_right hidle
    cases why with
    | overflow o => exact ⟨rfl, ⟨h.node, h.place, h.writer⟩, trivial⟩
    | silence => exact ⟨rfl, ⟨h.node, h.place, h.writer⟩, trivial⟩
    | error e =>
      cases e with
      | noData => exact ⟨rfl, ⟨h.node, h.place, h.writer⟩, hintact, hlast⟩
      | _ => exact ⟨rfl, ⟨h.node, h.place, h.writer⟩, hlast⟩

theorem careful_send {m : BlockMessage} (h : r.Careful sent) (hphase : r.phase = .offering c m) :
    ((r.send c m).queue = r.queue ∧ (r.send c m).Careful sent) ∨
      (r.send c m).queue = r.queue.push m ∧ (r.send c m).Careful (sent ++ [m]) := by
  have hpromises := h.promises
  rw [hphase] at hpromises
  obtain ⟨hintact, hflag⟩ := hpromises
  unfold send
  split
  · exact .inl ⟨rfl, ⟨h.node, h.place, h.writer⟩, trivial⟩
  · split
    · exact .inl ⟨rfl, h⟩
    · refine .inr ?_
      dsimp only
      split
      · exact ⟨rfl, ⟨h.node, h.place, h.writer⟩, trivial⟩
      · exact ⟨rfl, ⟨h.node, h.place, h.writer⟩, hintact, hflag.imp_left settled_concat⟩

/-- **One move**: the fetcher stays careful about what it has sent. -/
theorem careful_step (h : r.Careful sent) :
    (r.step.queue = r.queue ∧ r.step.Careful sent) ∨
      ∃ m, r.step.queue = r.queue.push m ∧ r.step.Careful (sent ++ [m]) := by
  have hpromises := h.promises
  unfold step
  cases hphase : r.phase with
  | scanning =>
    rw [hphase] at hpromises
    dsimp only
    cases hstart : Cursor.start r.place r.batchSize r.next none with
    | error e => exact .inl ⟨rfl, ⟨h.node, h.place, h.writer⟩, hpromises⟩
    | ok c => exact .inl ⟨rfl, ⟨h.node, h.place, h.writer⟩, Cursor.intact_start hstart, .inl hpromises⟩
  | reading c =>
    rw [hphase] at hpromises
    obtain ⟨hintact, hsettled⟩ := hpromises
    have hanswers := Cursor.answers_next h.node h.place hintact r.state
    exact .inl (careful_react (r := { r with state := (c.next r.node r.place r.state).2.2 })
      ⟨h.node, h.place, h.writer⟩ hsettled hanswers)
  | offering c m =>
    rcases careful_send h hphase with hstays | hsends
    · exact .inl hstays
    · exact .inr ⟨m, hsends⟩
  | polling c wake => exact .inl ⟨rfl, h⟩
  | failing wake => exact .inl ⟨rfl, h⟩
  | hanging => exact .inl ⟨rfl, h⟩
  | stopped => exact .inl ⟨rfl, h⟩
  | broken => exact .inl ⟨rfl, h⟩

theorem careful_wake (h : r.Careful sent) : r.wake.queue = r.queue ∧ r.wake.Careful sent := by
  have hpromises := h.promises
  unfold wake
  split
  · rename_i c t hphase
    rw [hphase] at hpromises
    split
    · exact ⟨rfl, ⟨h.node, h.place, h.writer⟩, hpromises.1, .inl hpromises.2⟩
    · exact ⟨rfl, h⟩
  · rename_i t hphase
    rw [hphase] at hpromises
    split
    · exact ⟨rfl, ⟨h.node, h.place, h.writer⟩, hpromises⟩
    · exact ⟨rfl, h⟩
  · exact ⟨rfl, h⟩

theorem careful_cancel (h : r.Careful sent) : r.cancel.queue = r.queue ∧ r.cancel.Careful sent := by
  unfold cancel
  split
  · exact ⟨rfl, h⟩
  · exact ⟨rfl, ⟨h.node, h.place, h.writer⟩, trivial⟩

end Fetcher

/-! ### Runs -/

/-- A node comes with exact answers, and an archive from the writers that made it. -/
def FetchAction.Fair : FetchAction σ → Prop
  | .node n _ => n.Exact
  | .archive place => Archive.Produced place
  | _ => True

/-- The cursor is about to find that there is nothing new, or it has and waits to ask again. -/
def FetchPhase.Idle (answer : Cursor → Except NoAnswer Block) : FetchPhase → Prop
  | .reading c => answer c = .error (.error .noData)
  | .polling _ _ => True
  | .scanning | .offering _ _ | .failing _ | .hanging | .stopped | .broken => False

instance (answer : Cursor → Except NoAnswer Block) : (phase : FetchPhase) → Decidable (phase.Idle answer)
  | .reading _ => inferInstanceAs (Decidable (_ = _))
  | .polling _ _ => .isTrue trivial
  | .scanning | .offering _ _ | .failing _ | .hanging | .stopped | .broken => .isFalse id

namespace Feed

/-- The fetcher is careful about what has been sent. -/
def Careful (f : Feed σ) : Prop := f.fetcher.Careful f.sent

/-- There is nothing new. -/
def Idle (f : Feed σ) : Prop :=
  f.fetcher.phase.Idle fun c => (c.next f.fetcher.node f.fetcher.place f.fetcher.state).1

instance (f : Feed σ) : Decidable f.Idle := inferInstanceAs (Decidable (FetchPhase.Idle _ _))

variable {f : Feed σ}

theorem careful_of_queue {r : Fetcher σ} (h : r.queue = f.fetcher.queue ∧ r.Careful f.sent) :
    (f.withFetcher r).Careful := by
  unfold Careful
  rw [sent_of_queue h.1]
  exact h.2

theorem careful_move (h : f.Careful) : (f.withFetcher f.fetcher.step).Careful := by
  rcases Fetcher.careful_step h with hstays | ⟨m, hqueue, hcareful⟩
  · exact careful_of_queue hstays
  · unfold Careful
    rw [sent_of_push hqueue]
    exact hcareful

theorem careful_poll {answer : Fetcher.Received × Fetcher σ} (hanswer : f.fetcher.poll = some answer)
    (h : f.Careful) : (f.received answer).Careful := by
  obtain ⟨hsent, queue, hfetcher⟩ := sent_received hanswer
  unfold Careful
  rw [hsent, hfetcher]
  exact ⟨⟨h.node, h.place, h.writer⟩, h.promises⟩

theorem lasting_careful : Lasting (Careful : Feed σ → Prop) where
  move := careful_move
  wake h := careful_of_queue (Fetcher.careful_wake h)
  now _ h := ⟨⟨h.node, h.place, h.writer⟩, h.promises⟩
  poll := careful_poll

theorem careful_action {a : FetchAction σ} (ha : a.Fair) (h : f.Careful) : (f.step a).Careful := by
  cases a with
  | move => exact careful_move h
  | wake => exact lasting_careful.wake h
  | idle ms => exact lasting_careful.now _ h
  | pass deadline => exact lasting_careful.passTo deadline f.fetcher h
  | take =>
    unfold step
    cases hpoll : f.fetcher.poll with
    | none => exact h
    | some answer => exact careful_poll hpoll h
  | receive deadline => exact lasting_careful.receive deadline f.fetcher h
  | node node state => exact ⟨⟨ha, h.place, h.writer⟩, h.promises⟩
  | archive place => exact ⟨⟨h.node, ha.complete, h.writer⟩, h.promises⟩
  | close => exact ⟨⟨h.node, h.place, h.writer⟩, h.promises⟩
  | cancel => exact careful_of_queue (Fetcher.careful_cancel h)

theorem careful_run {actions : List (FetchAction σ)} (hactions : ∀ a ∈ actions, a.Fair) (h : f.Careful) :
    (f.run actions).Careful :=
  List.foldlRecOn actions step h fun _ h _ ha => careful_action (hactions _ ha) h

/-- **Nothing new**: then the last block that was sent had the flag. -/
theorem Careful.settled (h : f.Careful) (hidle : f.Idle) : Settled f.sent := by
  have hpromises := h.promises
  unfold Idle at hidle
  cases hphase : f.fetcher.phase with
  | reading c =>
    rw [hphase] at hpromises hidle
    obtain ⟨hintact, hsettled⟩ := hpromises
    have hnothing : (c.next f.fetcher.node f.fetcher.place f.fetcher.state).1 = .error (.error .noData) := hidle
    have hanswers := Cursor.answers_next h.node h.place hintact f.fetcher.state
    rw [hnothing] at hanswers
    cases hanswers with
    | nothing _ hnone => exact hsettled.resolve_right hnone
  | polling c wake =>
    rw [hphase] at hpromises
    exact hpromises.2
  | _ =>
    rw [hphase] at hidle
    exact hidle.elim

end Feed

/-! ### Ingestors -/

namespace Ingestor

/-- Messages that an ingestor has taken in one after the other, while the store stopped and started to refuse rows
between them. -/
inductive Consumed (g₀ : Ingestor) : List BlockMessage → Ingestor → Prop
  | start : Consumed g₀ [] g₀
  | refuse {messages : List BlockMessage} {g : Ingestor} (outage : Bool) (tables : List String)
      (h : Consumed g₀ messages g) : Consumed g₀ messages (g.refusing outage tables)
  | process {messages : List BlockMessage} {g g' : Ingestor} {m : BlockMessage} {o : BlockOutcome}
      (h : Consumed g₀ messages g) (hok : g.process m.block m.batchEnd = (.ok o, g')) :
      Consumed g₀ (messages ++ [m]) g'

theorem consumed_consume {g₀ g g' : Ingestor} {messages queue : List BlockMessage} (h : g₀.Consumed messages g)
    (hconsume : g.consume queue = (.ok (), g')) : g₀.Consumed (messages ++ queue) g' := by
  induction queue generalizing g messages with
  | nil =>
    cases hconsume
    rwa [List.append_nil]
  | cons m rest ih =>
    unfold consume at hconsume
    cases hprocess : g.process m.block m.batchEnd with
    | mk result g₁ =>
      rw [hprocess] at hconsume
      cases result with
      | error stop => cases hconsume
      | ok o =>
        rw [List.append_cons]
        exact ih (h.process hprocess) hconsume

theorem pending_of_process {g g' : Ingestor} {b : Block} {o : BlockOutcome} (h : g.process b true = (.ok o, g')) :
    g'.books.inserter.pending = [] := by
  have hcommitted : o.committed = true := (committed_of_process h).trans (Bool.true_or _)
  obtain ⟨g₁, stamp, demux, record, depthRows, hclose⟩ := close_of_process h
  exact pending_of_close hclose hcommitted

variable {g₀ g : Ingestor} {messages : List BlockMessage}

/-- The ledger has a row for each message, and after a message with the flag nothing is held back. -/
theorem Consumed.heights (hclosed₀ : g₀.books.inserter.Closed) (hpending₀ : g₀.books.inserter.pending = [])
    (h : g₀.Consumed messages g) :
    g.books.inserter.Closed ∧
      heightsIn g.rows = heightsIn g₀.rows ++ messages.map (fun m => m.block.height) ∧
      (Settled messages → g.books.inserter.pending = []) := by
  induction h with
  | start => exact ⟨hclosed₀, (List.append_nil _).symm, fun _ => hpending₀⟩
  | refuse outage tables _ ih => exact ih
  | @process messages g g' m o _ hok ih =>
    obtain ⟨hclosed, hheights, -⟩ := ih
    obtain ⟨-, hattempted⟩ := attempted_process (.inr hclosed) hok nofun
    cases hattempted with
    | begun _ _ hends =>
      cases hends with
      | through hclosed' hadded =>
        refine ⟨hclosed', ?_, fun hsettled => ?_⟩
        · rw [hadded, hheights, List.map_append, List.append_assoc]
          rfl
        · have hflag : m.batchEnd = true := hsettled m List.getLast?_concat
          rw [hflag] at hok
          exact pending_of_process hok

end Ingestor

/-- **Idleness**: a fetcher reads archives that writers have made and nodes that answer exactly or not at all, both
of which may change at any moment, and it may fail and begin anew.  While it finds nothing new, the last block it has
sent is one after which an ingestor commits: an ingestor that has taken in all that was sent holds nothing back, and
the store has every block. -/
theorem Fetcher.idle_committed {node : Node σ} (hnode : node.Exact) {place : Place} (hplace : Archive.Produced place)
    (state : σ) (batchSize pollMs : Nat) (backoff : Backoff) (archiving : Option (Nat × Int64)) (start : Int64)
    (capacity : Nat) {actions : List (FetchAction σ)} (hactions : ∀ a ∈ actions, a.Fair) :
    let writer := archiving.map fun w => Archive.Writer.ofSize w.1 w.2
    let fetcher := Fetcher.start node state place batchSize pollMs backoff writer start capacity
    let f := Feed.run ⟨fetcher, []⟩ actions
    f.Idle →
      Settled f.sent ∧
        ∀ (setup : Setup) (s : Store) (r : Recovered) (g : Ingestor), (setup.ingestor s r).Consumed f.sent g →
          g.books.inserter.pending = [] ∧ g.store.heights = s.heights ++ f.sent.map fun m => m.block.height := by
  intro writer fetcher f hidle
  have hwriter : ∀ w, writer = some w → w.Coherent := by
    intro w hw
    obtain ⟨-, -, rfl⟩ := Option.map_eq_some_iff.1 hw
    exact Archive.Writer.coherent_of_closed rfl
  have hstart : Feed.Careful ⟨fetcher, []⟩ := ⟨⟨hnode, hplace.complete, hwriter⟩, nofun⟩
  have hsettled : Settled f.sent := (Feed.careful_run hactions hstart).settled hidle
  refine ⟨hsettled, fun setup s r g hconsumed => ?_⟩
  have hempty : (setup.ingestor s r).books.inserter.pending = [] := Inserter.pending_ofStrategy setup.strategy
  obtain ⟨-, hheights, hpending⟩ :=
    hconsumed.heights (Inserter.closed_ofStrategy setup.strategy) hempty
  have hnone := hpending hsettled
  unfold Ingestor.rows at hheights
  rw [hnone, hempty, List.append_nil, List.append_nil] at hheights
  exact ⟨hnone, hheights⟩

/-- An archive with one batch, the blocks 1 and 2, and what is left of another. -/
def Archive.cutOff : Place :=
  Writer.session 2 1 ((Node.heights 1 3).map ScriptedNode.block) (.packed "") .absent

/-- After its first block a fetcher loses its archive, and its node changes for one that has not got any further. -/
def FetchAction.setback : List (FetchAction Unit) :=
  [.move, .move, .move, .archive .absent, .node (.steady ScriptedNode.block 3) (), .move, .move, .move]

/-- A fetcher behind that archive which takes two blocks at a time and archives them. -/
def Feed.setBack : Feed Unit :=
  let fetcher := Fetcher.start (.steady ScriptedNode.block 4) () Archive.cutOff 2 100 (.ofBounds 50 50)
    (some (.ofSize 10 3)) 3 8
  Feed.run ⟨fetcher, []⟩ FetchAction.setback

/-- The block 3 comes without the flag.  The block 4 is at hand by then, so it comes although the new node has no
such block; only then there is nothing new, and both blocks are stored. -/
theorem Fetcher.idle_committed_setBack :
    let g₀ := (Setup.seeded .batch 3).ingestor .empty (.fresh 3)
    Feed.setBack.sent.map (fun m => m.batchEnd) = [false, true] ∧ Settled Feed.setBack.sent ∧
      ∃ g, g₀.Consumed Feed.setBack.sent g ∧ g.books.inserter.pending = [] ∧ g.store.heights = [3, 4] := by
  intro g₀
  have hexact : ∀ head, (Node.steady ScriptedNode.block head).Exact :=
    fun _ => Node.exact_steady (fun _ => rfl) ScriptedNode.isValid_block
  have hproduced : Archive.Produced Archive.cutOff := by
    refine .session .absent 2 1 (fun b hb => ?_) (.packed "")
    obtain ⟨h, -, rfl⟩ := List.mem_map.1 hb
    exact ScriptedNode.isValid_block h
  have hfair : ∀ a ∈ FetchAction.setback, a.Fair := by
    simp only [FetchAction.setback, List.forall_mem_cons]
    exact ⟨trivial, trivial, trivial, .absent, hexact 3, trivial, trivial, trivial, nofun⟩
  have hidle : Feed.setBack.Idle := by decide +kernel
  have hconsumed : g₀.Consumed Feed.setBack.sent (g₀.consume Feed.setBack.sent).2 :=
    Ingestor.consumed_consume .start (Prod.ext (by decide +kernel) rfl)
  have hheights : Feed.setBack.sent.map (fun m => m.block.height) = [3, 4] := by decide +kernel
  obtain ⟨hsettled, hcommitted⟩ := Fetcher.idle_committed (hexact 4) hproduced () 2 100 (.ofBounds 50 50)
    (some (10, 3)) 3 8 hfair hidle
  obtain ⟨hpending, hstored⟩ := hcommitted (.seeded .batch 3) .empty (.fresh 3) _ hconsumed
  refine ⟨by decide +kernel, hsettled, _, hconsumed, hpending, ?_⟩
  rw [hstored]
  exact hheights

end PoolIndexer
