import PoolIndexer.Chain.Cursor
import PoolIndexer.Proofs.Chain.Archive.Text
import PoolIndexer.Proofs.Chain.Node

/-!
# Proofs.Chain.Transparency — the same blocks with and without an archive

* `Cursor.poll`: one request, answered with a block, with the news that there is none, or with an error.
* `Cursor.todo`: the blocks of a chain that a cursor has still to hand out.
* `Cursor.OnTrack`: all that the archive can give is of the chain, and what is buffered is what comes next.
* `Cursor.next_cases`: a cursor on track hands out the first block it has to and stays on track.
-/

namespace PoolIndexer

/-- The block is the one of the chain at its height, which the chain has reached. -/
def Mirrors (chain : Int64 → Block) (head : Int64) (b : Block) : Prop :=
  b.height.toInt ≤ head.toInt ∧ b = chain b.height

namespace Cursor

variable {σ : Type} {node : Node σ} {chain : Int64 → Block} {head : Int64} {p : Place} {c : Cursor}

/-- One request: a block, or nothing if there is none at the moment. -/
def poll (node : Node σ) (p : Place) (s : Cursor × σ) : Except NoAnswer (Option Block) × (Cursor × σ) :=
  match s.1.next node p s.2 with
  | (.ok b, s') => (.ok (some b), s')
  | (.error (.error .noData), s') => (.ok none, s')
  | (.error e, s') => (.error e, s')

/-- The last height to be handed out while the chain ends at `head`. -/
def goal (head : Int64) (c : Cursor) : Int64 := Checked.smaller head (c.lastHeight.getD head)

/-- The blocks that are still to be handed out. -/
def todo (chain : Int64 → Block) (head : Int64) (c : Cursor) : List Block :=
  (Node.heights c.nextHeight (c.goal head)).map chain

theorem toInt_goal (head : Int64) (c : Cursor) :
    (c.goal head).toInt = min head.toInt (c.lastHeight.getD head).toInt :=
  Checked.toInt_smaller _ _

theorem goal_le_head (head : Int64) (c : Cursor) : (c.goal head).toInt ≤ head.toInt := by
  rw [toInt_goal]
  omega

theorem isPast_eq_false_iff {c : Cursor} :
    c.isPast = false ↔ ∀ last, c.lastHeight = some last → c.nextHeight.toInt ≤ last.toInt := by
  unfold isPast
  cases c.lastHeight with
  | none => exact ⟨fun _ _ h => (nomatch h), fun _ => rfl⟩
  | some last =>
    rw [decide_eq_false_iff_not, Int.not_lt]
    exact ⟨fun h last' hlast' => by cases hlast'; exact h, fun h => h last rfl⟩

theorem goal_lt_of_isPast (head : Int64) {c : Cursor} (h : c.isPast = true) : (c.goal head).toInt < c.nextHeight.toInt := by
  rw [toInt_goal]
  unfold isPast at h
  cases hlast : c.lastHeight with
  | none =>
    rw [hlast] at h
    cases h
  | some last =>
    rw [hlast] at h
    have := of_decide_eq_true h
    rw [Option.getD_some]
    omega

theorem le_goal_of_le_head {c : Cursor} (hpast : c.isPast = false) (hhead : c.nextHeight.toInt ≤ head.toInt) :
    c.nextHeight.toInt ≤ (c.goal head).toInt := by
  rw [toInt_goal]
  rw [isPast_eq_false_iff] at hpast
  cases hlast : c.lastHeight with
  | none =>
    rw [Option.getD_none]
    omega
  | some last =>
    have := hpast last hlast
    rw [Option.getD_some]
    omega

/-- No height that the cursor may ask for is too large for a whole range of blocks above it. -/
structure Bounded (head : Int64) (c : Cursor) : Prop where
  low : 1 ≤ c.nextHeight.toInt
  batch : 1 ≤ c.batchSize
  room : ∀ h : Int, (h = c.nextHeight.toInt ∨ h ≤ head.toInt + 1) →
    (∀ last, c.lastHeight = some last → h ≤ last.toInt) → h + c.batchSize < 2 ^ 63

/-- All that archive and buffer can give is what the cursor has to hand out. -/
structure OnTrack (chain : Int64 → Block) (head : Int64) (p : Place) (c : Cursor) : Prop where
  bounded : c.Bounded head
  archive : ∀ reader last, c.archive = some (reader, last) → c.buffer = [] ∧ reader.Sound (Mirrors chain head) p
  buffer : c.buffer <+: c.todo chain head

theorem OnTrack.withoutArchive (h : c.OnTrack chain head p) :
    { c with archive := none }.OnTrack chain head p :=
  ⟨⟨h.bounded.low, h.bounded.batch, h.bounded.room⟩, fun _ _ hnone => (nomatch hnone), h.buffer⟩

theorem todo_of_lt (h : (c.goal head).toInt < c.nextHeight.toInt) : c.todo chain head = [] := by
  unfold todo
  rw [Node.heights_of_lt h]
  rfl

/-- Up to the goal there is a block to hand out and a height to go on at. -/
theorem Bounded.todo_of_le (chain : Int64 → Block) (h : c.Bounded head) (hgoal : c.nextHeight.toInt ≤ (c.goal head).toInt) :
    ∃ next, Checked.add c.nextHeight 1 = .ok next ∧ next.toInt = c.nextHeight.toInt + 1 ∧
      c.todo chain head = chain c.nextHeight :: (Node.heights next (c.goal head)).map chain := by
  have hpast : c.isPast = false := by
    cases hpast : c.isPast with
    | false => rfl
    | true => exact absurd (goal_lt_of_isPast head hpast) (Int.not_lt.2 hgoal)
  have hlow := h.low
  have hbatch := h.batch
  have hroom := h.room _ (.inl rfl) (isPast_eq_false_iff.1 hpast)
  obtain ⟨next, hadd, hnext⟩ := Checked.exists_fit .add
    (show -2 ^ 63 ≤ c.nextHeight.toInt + (1 : Int64).toInt by rw [Int64.toInt_one]; omega)
    (by rw [Int64.toInt_one]; omega)
  rw [Int64.toInt_one] at hnext
  refine ⟨next, hadd, hnext, ?_⟩
  unfold todo
  rw [Node.heights_of_le hgoal hnext, List.map_cons]

/-! ### Handing out -/

/-- The block that comes next is handed out, and what is left is left. -/
theorem deliver_onTrack (hnode : node.Has chain head) {b : Block} (hbounded : c.Bounded head)
    (harchive : ∀ reader last, c.archive = some (reader, last) →
      c.buffer = [] ∧ reader.Sound (Mirrors chain head) p)
    (hbuffer : b :: c.buffer <+: c.todo chain head) (closes : Bool) (origin : Origin) :
    ∃ c', c.deliver b closes origin = (.ok b, c') ∧ c'.OnTrack chain head p ∧
      c.todo chain head = b :: c'.todo chain head := by
  have hgoal : c.nextHeight.toInt ≤ (c.goal head).toInt := by
    refine Int.not_lt.1 fun hlt => ?_
    rw [todo_of_lt hlt] at hbuffer
    cases List.prefix_nil.1 hbuffer
  have hhead := goal_le_head head c
  obtain ⟨next, hadd, hnext, htodo⟩ := hbounded.todo_of_le chain hgoal
  rw [htodo] at hbuffer ⊢
  obtain ⟨rfl, hrest⟩ := List.cons_prefix_cons.1 hbuffer
  have hheight := hnode.height_eq _ hbounded.low (Int.le_trans hgoal hhead)
  have hdeliver : c.deliver (chain c.nextHeight) closes origin = (.ok (chain c.nextHeight),
      { c with nextHeight := next, atBatchEnd := closes, origin := some origin }) := by
    unfold deliver
    rw [if_neg (fun hne => hne hheight), hadd]
  refine ⟨_, hdeliver, ⟨⟨?_, hbounded.batch, fun h hh hlast => ?_⟩, harchive, hrest⟩, rfl⟩
  · have hlow := hbounded.low
    show 1 ≤ next.toInt
    omega
  · have hh' : h ≤ head.toInt + 1 := by
      rcases hh with hh | hh
      · have : h = next.toInt := hh
        omega
      · exact hh
    exact hbounded.room h (.inr hh') hlast

/-! ### The archive -/

/-- An archive of the chain hands out what comes next or is left. -/
theorem fromArchive_onTrack (hnode : node.Has chain head) (h : c.OnTrack chain head p) (hpast : c.isPast = false) :
    c.fromArchive p = (.ok none, { c with archive := none }) ∨
      ∃ b c', c.fromArchive p = (.ok (some b), c') ∧ c'.OnTrack chain head p ∧
        c.todo chain head = b :: c'.todo chain head := by
  obtain ⟨archive, batchSize, nextHeight, lastHeight, buffer, atBatchEnd, origin, chainHeight⟩ := c
  unfold fromArchive
  cases archive with
  | none => exact .inl rfl
  | some archive =>
    obtain ⟨reader, last⟩ := archive
    obtain ⟨hbuffer, hsound⟩ := h.archive reader last rfl
    dsimp only at hbuffer ⊢
    subst hbuffer
    by_cases hlast : last.toInt < nextHeight.toInt
    · rw [if_pos hlast]
      exact .inl rfl
    · rw [if_neg hlast]
      rcases Archive.Reader.next_cases nextHeight hsound with
        ⟨reader', hnext, -⟩ | ⟨a, reader', hnext, -, hsound', ⟨hhead, hblock⟩, hfirst⟩
      · rw [hnext]
        exact .inl rfl
      · rw [hnext]
        dsimp only
        by_cases hheight : a.block.height = nextHeight
        · rw [if_neg (fun hne => hne hheight)]
          rw [hheight] at hblock hhead
          generalize (a.closes || decide (lastHeight = some a.block.height)) = closes
          have hbounded := h.bounded
          obtain ⟨next, -, -, htodo⟩ := hbounded.todo_of_le chain (le_goal_of_le_head hpast hhead)
          obtain ⟨c', hdeliver, htrack, hrest⟩ := deliver_onTrack (p := p)
            (c := ⟨some (reader', last), batchSize, nextHeight, lastHeight, [], atBatchEnd, origin, chainHeight⟩)
            (b := a.block) hnode ⟨hbounded.low, hbounded.batch, hbounded.room⟩
            (fun _ _ hsome => by cases hsome; exact ⟨rfl, hsound'⟩)
            ⟨_, by rw [hblock]; exact htodo.symm⟩ closes .archive
          refine .inr ⟨a.block, c', ?_, htrack, hrest⟩
          rw [hdeliver]
          rfl
        · rw [if_pos hheight]
          exact .inl rfl

/-! ### The node -/

theorem fromBuffer_onTrack (hnode : node.Has chain head) (h : c.OnTrack chain head p) {b : Block}
    {rest : List Block} (hbuffer : c.buffer = b :: rest) :
    ∃ c', c.fromBuffer = (.ok b, c') ∧ c'.OnTrack chain head p ∧ c.todo chain head = b :: c'.todo chain head := by
  have hprefix := h.buffer
  rw [hbuffer] at hprefix
  have harchive : ∀ reader last, c.archive = some (reader, last) → False := by
    intro reader last hsome
    cases hbuffer.symm.trans (h.archive reader last hsome).1
  unfold fromBuffer
  rw [hbuffer]
  exact deliver_onTrack (c := { c with buffer := rest }) hnode
    ⟨h.bounded.low, h.bounded.batch, h.bounded.room⟩
    (fun reader last hsome => (harchive reader last hsome).elim) hprefix rest.isEmpty .node

/-- The node is asked for blocks up to the goal, but for no more than one range. -/
theorem Bounded.lastWanted (h : c.Bounded head) (hpast : c.isPast = false) :
    ∃ wanted, c.lastWanted head = .ok wanted ∧
      wanted.toInt = min (c.goal head).toInt (c.nextHeight.toInt + c.batchSize - 1) := by
  have hlow := h.low
  have hbatch := h.batch
  have hroom := h.room _ (.inl rfl) (isPast_eq_false_iff.1 hpast)
  have hsize : (Int64.ofNat c.batchSize).toInt = c.batchSize := Int64.toInt_ofNat_of_lt (by omega)
  obtain ⟨above, habove, habove'⟩ := Checked.exists_fit .add
    (show -2 ^ 63 ≤ c.nextHeight.toInt + (Int64.ofNat c.batchSize).toInt by omega) (by omega)
  obtain ⟨last, hlast, hlast'⟩ := Checked.exists_fit .subtract
    (show -2 ^ 63 ≤ above.toInt - (1 : Int64).toInt by rw [Int64.toInt_one]; omega)
    (by rw [Int64.toInt_one]; omega)
  rw [Int64.toInt_one] at hlast'
  refine ⟨Checked.smaller (Checked.smaller head last) (c.lastHeight.getD head),
    bind_eq_ok_iff.2 ⟨above, habove, bind_eq_ok_iff.2 ⟨last, hlast, rfl⟩⟩, ?_⟩
  rw [toInt_goal, Checked.toInt_smaller, Checked.toInt_smaller]
  omega

/-- The node is asked for blocks unless the goal has been passed. -/
theorem fill_onTrack (hnode : node.Has chain head) (h : c.OnTrack chain head p) (hpast : c.isPast = false)
    (harchive : c.archive = none) (hbuffer : c.buffer = []) (s : σ) :
    (c.todo chain head = [] ∧ ∃ c' s', c.fill node s = (.error (.error .noData), c', s')) ∨
      ∃ b rest c' s', c.fill node s = (.ok (), c', s') ∧ c'.buffer = b :: rest ∧ c'.OnTrack chain head p ∧
        c'.todo chain head = c.todo chain head := by
  have hlow := h.bounded.low
  have hbatch := h.bounded.batch
  obtain ⟨wanted, hwanted, hend⟩ := h.bounded.lastWanted hpast
  have hhead := hnode.head_eq s
  unfold fill
  cases hanswer : node.head s with
  | mk answer s' =>
    rw [hanswer] at hhead
    cases hhead
    dsimp only
    rw [show Cursor.lastWanted { c with chainHeight := some head } head = .ok wanted from hwanted]
    dsimp only
    by_cases hpassed : (c.goal head).toInt < c.nextHeight.toInt
    · rw [if_pos (by omega)]
      exact .inl ⟨todo_of_lt hpassed, _, _, rfl⟩
    · rw [if_neg (by omega)]
      obtain ⟨next, -, hnext, -⟩ := h.bounded.todo_of_le chain (Int.not_lt.1 hpassed)
      have hgoal := goal_le_head head c
      have hblocks := hnode.blocks_eq c.nextHeight wanted s' hlow (by omega) (by omega)
      have hprefix : (Node.heights c.nextHeight wanted).map chain <+: c.todo chain head :=
        (Node.heights_prefix c.nextHeight (by omega)).map chain
      have hfirst : Node.heights c.nextHeight wanted = c.nextHeight :: Node.heights next wanted :=
        Node.heights_of_le (by omega) hnext
      cases hreply : node.blocks c.nextHeight wanted s' with
      | mk reply s'' =>
        rw [hreply] at hblocks
        cases hblocks
        refine .inr ⟨chain c.nextHeight, (Node.heights next wanted).map chain, _, _, rfl, ?_,
          ⟨⟨hlow, hbatch, h.bounded.room⟩, fun reader last hsome => ?_, ?_⟩, rfl⟩
        · show c.buffer ++ (Node.heights c.nextHeight wanted).map chain = _
          rw [hbuffer, hfirst]
          rfl
        · cases harchive.symm.trans hsome
        · show c.buffer ++ (Node.heights c.nextHeight wanted).map chain <+: _
          rw [hbuffer]
          exact hprefix

theorem fromNode_onTrack (hnode : node.Has chain head) (h : c.OnTrack chain head p) (hpast : c.isPast = false)
    (harchive : c.archive = none) (s : σ) :
    (c.todo chain head = [] ∧ ∃ c' s', c.fromNode node s = (.error (.error .noData), c', s')) ∨
      ∃ b c' s', c.fromNode node s = (.ok b, c', s') ∧ c'.OnTrack chain head p ∧
        c.todo chain head = b :: c'.todo chain head := by
  unfold fromNode
  cases hbuffer : c.buffer with
  | nil =>
    rw [if_pos List.isEmpty_nil]
    rcases fill_onTrack hnode h hpast harchive hbuffer s with
      ⟨hnone, c', s', hfill⟩ | ⟨b, rest, c', s', hfill, hbuffer', htrack, hsame⟩
    · rw [hfill]
      exact .inl ⟨hnone, c', s', rfl⟩
    · rw [hfill]
      obtain ⟨c'', hgive, htrack', hrest⟩ := fromBuffer_onTrack hnode htrack hbuffer'
      dsimp only
      rw [hgive]
      exact .inr ⟨b, c'', s', rfl, htrack', hsame.symm.trans hrest⟩
  | cons b rest =>
    rw [if_neg (by rw [List.isEmpty_cons]; exact Bool.false_ne_true)]
    obtain ⟨c', hgive, htrack, hrest⟩ := fromBuffer_onTrack hnode h hbuffer
    rw [hgive]
    exact .inr ⟨b, c', s, rfl, htrack, hrest⟩

/-- **One request**: a cursor on track hands out the first block it has to, or has none to hand out. -/
theorem next_cases (hnode : node.Has chain head) (h : c.OnTrack chain head p) (s : σ) :
    (c.todo chain head = [] ∧ ∃ c' s', c.next node p s = (.error (.error .noData), c', s')) ∨
      ∃ b c' s', c.next node p s = (.ok b, c', s') ∧ c'.OnTrack chain head p ∧
        c.todo chain head = b :: c'.todo chain head := by
  unfold next
  cases hpast : c.isPast with
  | true =>
    rw [if_pos rfl]
    exact .inl ⟨todo_of_lt (goal_lt_of_isPast head hpast), c, s, rfl⟩
  | false =>
    rw [if_neg Bool.false_ne_true]
    rcases fromArchive_onTrack hnode h hpast with hleft | ⟨b, c', hgive, htrack, hrest⟩
    · rw [hleft]
      exact fromNode_onTrack hnode h.withoutArchive hpast rfl s
    · rw [hgive]
      exact .inr ⟨b, c', s, rfl, htrack, hrest⟩

/-- **Requests in a row**: a cursor on track hands out what it has to and nothing else. -/
theorem yields_todo (hnode : node.Has chain head) (h : c.OnTrack chain head p) (s : σ) :
    Yields (poll node p) (c, s) (c.todo chain head) := by
  generalize htodo : c.todo chain head = bs
  induction bs generalizing c s with
  | nil =>
    rcases next_cases hnode h s with ⟨-, c', s', hnext⟩ | ⟨b, c', s', -, -, hrest⟩
    · have hpoll : poll node p (c, s) = (.ok none, (c', s')) := by
        unfold poll
        rw [hnext]
      exact .stop hpoll
    · cases htodo.symm.trans hrest
  | cons b bs ih =>
    rcases next_cases hnode h s with ⟨hnone, -⟩ | ⟨b', c', s', hnext, htrack, hrest⟩
    · cases htodo.symm.trans hnone
    · obtain ⟨rfl, rfl⟩ := List.cons.inj (htodo.symm.trans hrest)
      have hpoll : poll node p (c, s) = (.ok (some b), (c', s')) := by
        unfold poll
        rw [hnext]
      exact .more hpoll (ih htrack s' rfl)

theorem yields_iff (hnode : node.Has chain head) (h : c.OnTrack chain head p) (s : σ) (bs : List Block) :
    Yields (poll node p) (c, s) bs ↔ bs = c.todo chain head :=
  ⟨fun hbs => hbs.unique (yields_todo hnode h s), fun hbs => hbs ▸ yields_todo hnode h s⟩

/-! ### A new cursor -/

theorem ofBatches_onTrack {bs : List Archive.Batch} {batchSize : Nat} {first : Int64} {last : Option Int64}
    (hbounded : (ofBatches bs batchSize first last).Bounded head)
    (hsound : (Archive.Reader.ofBatches bs first).Sound (Mirrors chain head) p) :
    (ofBatches bs batchSize first last).OnTrack chain head p := by
  refine ⟨hbounded, fun reader height hsome => ⟨rfl, ?_⟩, List.nil_prefix⟩
  unfold ofBatches at hsome
  dsimp only at hsome
  split at hsome
  · split at hsome
    · cases hsome
      exact hsound
    · cases hsome
  · cases hsome

/-- The range goes to a height that the chain has reached, or there is room for one batch more. -/
def Ends (head : Int64) (batchSize : Nat) (last : Option Int64) : Prop :=
  (∃ l, last = some l ∧ l.toInt ≤ head.toInt) ∨ head.toInt + 1 + batchSize < 2 ^ 63

theorem bounded_ofBatches {batchSize : Nat} {first : Int64} {last : Option Int64} (hfirst : 1 ≤ first.toInt)
    (hroom : first.toInt + max batchSize 1 < 2 ^ 63) (hroom' : head.toInt + max batchSize 1 < 2 ^ 63)
    (hends : Ends head (max batchSize 1) last) (bs : List Archive.Batch) :
    (ofBatches bs batchSize first last).Bounded head := by
  refine ⟨hfirst, Nat.le_max_right _ _, fun h hh hlast => ?_⟩
  show h + (max batchSize 1 : Nat) < 2 ^ 63
  rcases hh with hh | hh
  · have : h = first.toInt := hh
    omega
  · rcases hends with ⟨l, hl, hle⟩ | hends
    · have := hlast l hl
      omega
    · omega

/-- **Transparency**: over an archive of readable batches whose blocks are those of the node, requests made
until there is no block give the blocks of the node from the first height to the last one wanted or reached,
and so they do without an archive. -/
theorem archive_transparent (hnode : node.Has chain head) {f : Folder}
    (harchive : Archive.AllReadable (Mirrors chain head) f) {first : Int64} {last : Option Int64} {batchSize : Nat}
    (hfirst : 1 ≤ first.toInt) (hroom : first.toInt + max batchSize 1 < 2 ^ 63)
    (hroom' : head.toInt + max batchSize 1 < 2 ^ 63) (hends : Ends head (max batchSize 1) last) :
    ∃ c c', start (.folder f) batchSize first last = .ok c ∧ start .absent batchSize first last = .ok c' ∧
      ∀ (s : σ) (bs : List Block),
        (Yields (poll node (.folder f)) (c, s) bs ↔
          bs = (Node.heights first (Checked.smaller head (last.getD head))).map chain) ∧
        (Yields (poll node .absent) (c', s) bs ↔
          bs = (Node.heights first (Checked.smaller head (last.getD head))).map chain) := by
  have hbounded := bounded_ofBatches hfirst hroom hroom' hends
  refine ⟨_, _, rfl, rfl, fun s bs => ⟨?_, ?_⟩⟩
  · exact yields_iff hnode (ofBatches_onTrack (hbounded _) (Archive.Reader.sound_ofBatches harchive first)) s bs
  · exact yields_iff hnode (ofBatches_onTrack (hbounded [])
      ⟨.inl rfl, fun b hb => absurd hb List.not_mem_nil⟩) s bs

/-- Two batches of a chain with a repeated block, a hole and two blocks in the wrong order, and a batch that has
never been finished. -/
def damaged : Folder :=
  [("000000000003", .packed (Archive.Writer.text [ScriptedNode.block 1, ScriptedNode.block 1, ScriptedNode.block 2])),
    ("000000000006", .packed (Archive.Writer.text [ScriptedNode.block 5, ScriptedNode.block 4])),
    ("000000000009.tmp", .plain "")]

theorem allReadable_damaged : Archive.AllReadable (Mirrors ScriptedNode.block 6) damaged := by
  have hbatches : damaged.names.filterMap Archive.batch? = [⟨"000000000003", 3⟩, ⟨"000000000006", 6⟩] := by decide
  refine Archive.allReadable_of_texts fun b hb => ?_
  rw [hbatches] at hb
  simp only [List.mem_cons, List.not_mem_nil, or_false] at hb
  rcases hb with rfl | rfl
  · refine ⟨_, rfl, fun b hb => ?_⟩
    simp only [List.mem_cons, List.not_mem_nil, or_false] at hb
    rcases hb with rfl | rfl | rfl <;> exact ⟨ScriptedNode.isValid_block _, by decide, rfl⟩
  · refine ⟨_, rfl, fun b hb => ?_⟩
    simp only [List.mem_cons, List.not_mem_nil, or_false] at hb
    rcases hb with rfl | rfl <;> exact ⟨ScriptedNode.isValid_block _, by decide, rfl⟩

theorem archive_transparent_damaged :
    Archive.AllReadable (Mirrors ScriptedNode.block 6) damaged ∧
      ∃ c c', start (.folder damaged) 2 1 (some 5) = .ok c ∧ start .absent 2 1 (some 5) = .ok c' ∧
        ∀ (s : Unit) (bs : List Block),
          (Yields (poll (.steady ScriptedNode.block 6) (.folder damaged)) (c, s) bs ↔
            bs = (Node.heights 1 5).map ScriptedNode.block) ∧
          (Yields (poll (.steady ScriptedNode.block 6) .absent) (c', s) bs ↔
            bs = (Node.heights 1 5).map ScriptedNode.block) :=
  ⟨allReadable_damaged, archive_transparent (Node.has_steady fun _ _ _ => rfl) allReadable_damaged (by decide) (by decide)
    (by decide) (.inl ⟨5, rfl, by decide⟩)⟩

/-- Next to the largest height a cursor does not come to the end of the chain: the end of the range after the
last block, or of the range of one block that stands for none at a time, does not fit into 64 bits. -/
theorem range_withoutRoom :
    (∃ c, start .absent 9223372036854775806 1 none = .ok c ∧
      ∀ bs, ¬ Yields (poll (.steady ScriptedNode.block 1) .absent) (c, ()) bs) ∧
    ∃ c, start .absent 0 9223372036854775807 none = .ok c ∧
      ∀ bs, ¬ Yields (poll (.steady ScriptedNode.block 9223372036854775807) .absent) (c, ()) bs := by
  refine ⟨⟨_, rfl, fun bs hbs => ?_⟩, ⟨_, rfl, fun bs hbs => ?_⟩⟩
  · have hfirst : (poll (.steady ScriptedNode.block 1) .absent (ofBatches [] 9223372036854775806 1 none, ())).1 =
        .ok (some (ScriptedNode.block 1)) := rfl
    have hsecond : (poll (.steady ScriptedNode.block 1) .absent
        (poll (.steady ScriptedNode.block 1) .absent (ofBatches [] 9223372036854775806 1 none, ())).2).1 =
          .error (.overflow .add) := rfl
    cases hbs with
    | stop h =>
      rw [h] at hfirst
      cases hfirst
    | more h hrest =>
      rw [h] at hsecond
      exact not_yields_of_error hsecond hrest
  · exact not_yields_of_error (e := .overflow .add) rfl hbs

end Cursor

end PoolIndexer
