import PoolIndexer.Proofs.Store.Inserter

/-!
# Proofs.Store.Wholeness — which groups of a block become durable

A caller starts and ends blocks, offers groups of rows, flushes and discards in any order, while the
store fails and recovers.

* `Draft`: the groups taken in one block, and those that a flush would still write.
* `Desk`: an inserter on its store, with what a caller can note down from the answers alone.
* `Desk.Sound`: the rows held are those of the drafts that wait and of the open one.
* `Desk.ended_whole_or_torn`: a block is stored whole or not at all unless the store failed inside of it.
  Then what was taken before the failure is missing.
-/

namespace PoolIndexer

/-! ### Offers to an inserter -/

theorem StagedRows.session_of_sessionOn_error {w : StagedRows} {s : Store} {e : StoreError}
    (h : w.sessionOn s = .error e) : w.session = none := by
  cases hsession : w.session with
  | none => rfl
  | some staged =>
    unfold sessionOn at h
    rw [hsession] at h
    cases h

/-- A flush is refused while a block is open; else it publishes the session, or loses it to an outage. -/
theorem StagedRows.flush_cases (w : StagedRows) (s : Store) :
    (w.block.isOpen = true ∧ w.flush s = (.error (.insert (.protocol "flush while a block is open")), w)) ∨
    (w.block.isOpen = false ∧ w.flush s =
      (.ok (⟨w.block.ended, w.written, w.skipped⟩, { s with rows := s.rows ++ w.session.getD [] }), w.reset)) ∨
    (w.block.isOpen = false ∧ s.outage = true ∧ w.flush s = (.error (.store Store.writeFailure), w.reset)) := by
  unfold flush
  cases hopen : w.block.isOpen with
  | true => exact .inl ⟨rfl, rfl⟩
  | false =>
    cases hsession : w.session with
    | none =>
      refine .inr (.inl ⟨rfl, ?_⟩)
      rw [Option.getD_none, List.append_nil]
      rfl
    | some staged =>
      cases houtage : s.outage with
      | true => exact .inr (.inr ⟨rfl, rfl, by simp [Store.publish, houtage]⟩)
      | false => exact .inr (.inl ⟨rfl, by simp [Store.publish, houtage]⟩)

namespace Inserter

theorem eq_tolerant {i : Inserter} (h : i.strategy = .tolerant) : ∃ w, i = .tolerant w := by
  cases i with
  | batch b => cases h
  | tolerant w => exact ⟨w, rfl⟩

theorem insertRows_of_closed {i : Inserter} (h : i.block.isOpen = false) (s : Store) (group : List Row) :
    i.insertRows s group = (.error (.insert (.protocol "insert outside of a block")), i) := by
  cases i with
  | batch b =>
    have hopen : b.block.isOpen = false := h
    simp only [insertRows, RowBuffer.push, BlockState.requireOpen, hopen]
    rfl
  | tolerant w =>
    have hopen : w.block.isOpen = false := h
    simp only [insertRows, StagedRows.push, BlockState.requireOpen, hopen]
    rfl

/-- A failure that is no refusal leaves nothing held. -/
theorem pending_of_failure {i i' : Inserter} {s : Store} {group : List Row} {e : IndexerError} (h : i.Open)
    (hi : i.insertRows s group = (.error e, i')) (he : e.isRowRefusal = false) : i'.pending = [] := by
  obtain ⟨htolerant, -⟩ := insertRows_error h hi
  obtain ⟨w, rfl⟩ := eq_tolerant htolerant
  have hopen : w.block.isOpen = true := h
  simp only [insertRows, StagedRows.push, BlockState.requireOpen, hopen, if_true] at hi
  split at hi
  · cases hi
  · cases hsession : w.sessionOn s with
    | error f =>
      rw [hsession] at hi
      cases hi
      have hnone := StagedRows.session_of_sessionOn_error hsession
      exact congrArg (·.getD []) hnone
    | ok staged =>
      rw [hsession] at hi
      dsimp only [Store.stage] at hi
      cases hrefusal : s.refusal? group with
      | none =>
        rw [hrefusal] at hi
        cases hi
      | some f =>
        rw [hrefusal] at hi
        cases f with
        | rowRejected table reason =>
          cases hi
          cases he
        | _ =>
          cases hi
          rfl

end Inserter

/-! ### Drafts -/

/-- One block on its way into the store. -/
structure Draft where
  /-- The groups that were taken, in order. -/
  accepted : List (List Row)
  /-- Those that were taken since the store last failed inside of the block. -/
  kept : List (List Row)
  /-- Whether an offer inside of the block failed otherwise than by a refusal. -/
  failed : Bool
  deriving DecidableEq

namespace Draft

def empty : Draft := ⟨[], [], false⟩

def take (b : Draft) (group : List Row) : Draft :=
  { b with accepted := b.accepted ++ [group], kept := b.kept ++ [group] }

def lose (b : Draft) : Draft := { b with kept := [], failed := true }

/-- The rows that a flush writes for the block. -/
def rows (b : Draft) : List Row := b.kept.flatten

/-- The end of what was taken is kept, and all of it if nothing failed; only the tolerant strategy writes
before the flush, so only there an offer can fail. -/
structure Fair (strategy : Strategy) (b : Draft) : Prop where
  suffix : b.kept <:+ b.accepted
  whole : b.failed = false → b.kept = b.accepted
  batch : strategy = .batch → b.failed = false

theorem fair_empty (strategy : Strategy) : Fair strategy .empty :=
  ⟨List.suffix_refl _, fun _ => rfl, fun _ => rfl⟩

theorem Fair.take {strategy : Strategy} {b : Draft} (h : b.Fair strategy) (group : List Row) :
    (b.take group).Fair strategy := by
  refine ⟨?_, fun hfailed => ?_, h.batch⟩
  · obtain ⟨before, hbefore⟩ := h.suffix
    refine ⟨before, ?_⟩
    show before ++ (b.kept ++ [group]) = b.accepted ++ [group]
    rw [← List.append_assoc, hbefore]
  · show b.kept ++ [group] = b.accepted ++ [group]
    rw [h.whole hfailed]

theorem fair_lose (b : Draft) : b.lose.Fair .tolerant :=
  ⟨List.nil_suffix, nofun, nofun⟩

@[simp] theorem rows_take (b : Draft) (group : List Row) : (b.take group).rows = b.rows ++ group := by
  simp [rows, take]

end Draft

/-! ### Calls -/

inductive InserterCall where
  | startBlock
  | insertRows (group : List Row)
  | endBlock
  | flush
  | discard
  /-- The store begins or ceases to fail, and rejects other tables. -/
  | disturb (outage : Bool) (rejectedTables : List String)

/-- An inserter on a store, with the blocks that its caller knows of. -/
structure Desk where
  inserter : Inserter
  store : Store
  /-- The open block. -/
  draft : Option Draft
  /-- Ended blocks whose rows the inserter still holds. -/
  waiting : List Draft
  /-- Ended blocks that a flush has made durable. -/
  stored : List Draft
  /-- All blocks that were ended. -/
  ended : List Draft

namespace Desk

def opened (strategy : Strategy) (s : Store) : Desk := ⟨.ofStrategy strategy, s, none, [], [], []⟩

/-- A failed offer or flush of the tolerant strategy loses its session with all that it holds. -/
def step (d : Desk) : InserterCall → Desk
  | .startBlock =>
    match d.inserter.startBlock with
    | .ok i => { d with inserter := i, draft := some .empty }
    | .error _ => d
  | .insertRows group =>
    match d.inserter.insertRows d.store group with
    | (.ok _, i) => { d with inserter := i, draft := d.draft.map (·.take group) }
    | (.error e, i) =>
      if e.isRowRefusal then { d with inserter := i }
      else { d with inserter := i, draft := d.draft.map Draft.lose, waiting := [] }
  | .endBlock =>
    match d.inserter.endBlock with
    | .ok i =>
      { d with
        inserter := i
        draft := none
        waiting := d.waiting ++ d.draft.toList
        ended := d.ended ++ d.draft.toList }
    | .error _ => d
  | .flush =>
    match d.inserter.flush d.store with
    | (.ok _, i, s) => { d with inserter := i, store := s, waiting := [], stored := d.stored ++ d.waiting }
    | (.error e, i, s) =>
      if e.isRowRefusal ∨ d.inserter.strategy = .batch then { d with inserter := i, store := s }
      else { d with inserter := i, store := s, waiting := [] }
  | .discard => { d with inserter := d.inserter.discard, draft := none, waiting := [] }
  | .disturb outage rejectedTables => { d with store := { d.store with outage, rejectedTables } }

def run (d : Desk) (calls : List InserterCall) : Desk := calls.foldl step d

/-- The rows of the blocks that wait, then those of the open block. -/
def Holds (waiting : List Draft) (draft : Option Draft) : Inserter → Prop
  | .batch b =>
    b.rows = waiting.flatMap Draft.rows ++ draft.elim [] Draft.rows ∧
      b.completed = (waiting.flatMap Draft.rows).length ∧ b.block = ⟨draft.isSome, waiting.length⟩
  | .tolerant w =>
    w.session.getD [] = waiting.flatMap Draft.rows ++ draft.elim [] Draft.rows ∧ w.block.isOpen = draft.isSome

structure Sound (strategy : Strategy) (base : List Row) (d : Desk) : Prop where
  unchanged : d.inserter.strategy = strategy
  rows : d.store.rows = base ++ d.stored.flatMap Draft.rows
  order : (d.stored ++ d.waiting).Sublist d.ended
  holds : Holds d.waiting d.draft d.inserter
  fair : ∀ b ∈ d.ended ++ d.draft.toList, b.Fair strategy

variable {strategy : Strategy} {base : List Row} {d : Desk}

theorem sound_opened (strategy : Strategy) (s : Store) : (opened strategy s).Sound strategy s.rows := by
  refine ⟨Inserter.strategy_ofStrategy strategy, (List.append_nil _).symm, List.Sublist.refl _, ?_, nofun⟩
  cases strategy with
  | batch => exact ⟨rfl, rfl, rfl⟩
  | tolerant => exact ⟨rfl, rfl⟩

/-! ### What each call does to the rows held -/

section

variable {waiting : List Draft} {draft : Option Draft} {i i' : Inserter} {s : Store} {group : List Row}

theorem Holds.isOpen (h : Holds waiting draft i) : i.block.isOpen = draft.isSome := by
  cases i with
  | batch b => exact congrArg BlockState.isOpen h.2.2
  | tolerant w => exact h.2

theorem Holds.draft_eq_none (h : Holds waiting draft i) (hclosed : i.block.isOpen = false) : draft = none := by
  rw [h.isOpen] at hclosed
  cases draft with
  | none => rfl
  | some b => cases hclosed

theorem Holds.startBlock (h : Holds waiting draft i) (hi : i.startBlock = .ok i') :
    draft = none ∧ Holds waiting (some .empty) i' ∧ i'.strategy = i.strategy := by
  cases i with
  | batch b =>
    obtain ⟨hrows, hcompleted, hblock⟩ := h
    simp only [Inserter.startBlock, RowBuffer.startBlock, BlockState.start, hblock] at hi
    cases draft with
    | some b' => cases hi
    | none =>
      cases hi
      exact ⟨rfl, ⟨hrows, hcompleted, rfl⟩, rfl⟩
  | tolerant w =>
    obtain ⟨hsession, hopen⟩ := h
    simp only [Inserter.startBlock, BlockState.start, hopen] at hi
    cases draft with
    | some b' => cases hi
    | none =>
      cases hi
      exact ⟨rfl, ⟨hsession, rfl⟩, rfl⟩

theorem Holds.endBlock (h : Holds waiting draft i) (hi : i.endBlock = .ok i') :
    Holds (waiting ++ draft.toList) none i' ∧ i'.strategy = i.strategy := by
  cases i with
  | batch b =>
    obtain ⟨hrows, hcompleted, hblock⟩ := h
    simp only [Inserter.endBlock, RowBuffer.endBlock, BlockState.finish, hblock] at hi
    cases draft with
    | none => cases hi
    | some b' =>
      cases hi
      have hended : (waiting ++ [b']).flatMap Draft.rows = b.rows := by
        rw [hrows, List.flatMap_append]
        simp
      refine ⟨⟨?_, ?_, ?_⟩, rfl⟩
      · exact hended.symm.trans (List.append_nil _).symm
      · exact congrArg List.length hended.symm
      · simp
  | tolerant w =>
    obtain ⟨hsession, hopen⟩ := h
    simp only [Inserter.endBlock, BlockState.finish, hopen] at hi
    cases draft with
    | none => cases hi
    | some b' =>
      cases hi
      refine ⟨⟨?_, rfl⟩, rfl⟩
      show w.session.getD [] = (waiting ++ [b']).flatMap Draft.rows ++ []
      rw [hsession, List.flatMap_append]
      simp

theorem Holds.insertRows_ok (h : Holds waiting draft i) (hi : i.insertRows s group = (.ok (), i')) :
    Holds waiting (draft.map (·.take group)) i' := by
  cases draft with
  | none =>
    rw [Inserter.insertRows_of_closed h.isOpen] at hi
    cases hi
  | some b' =>
    cases i with
    | batch b =>
      obtain ⟨hrows, hcompleted, hblock⟩ := h
      simp only [Inserter.insertRows, RowBuffer.push, BlockState.requireOpen, hblock] at hi
      cases hi
      refine ⟨?_, hcompleted, rfl⟩
      show b.rows ++ group = waiting.flatMap Draft.rows ++ (b'.take group).rows
      rw [hrows, Draft.rows_take, ← List.append_assoc]
      rfl
    | tolerant w =>
      have hkind := Inserter.strategy_insertRows (.tolerant w) s group
      rw [hi] at hkind
      obtain ⟨w', rfl⟩ := Inserter.eq_tolerant hkind
      rcases Inserter.insertRows_cases h.isOpen s group with
        ⟨_, hi', hopen, hpending⟩ | ⟨_, _, hi', -⟩ | ⟨_, _, hi', -⟩
      · cases hi.symm.trans hi'
        refine ⟨?_, hopen⟩
        have hheld : w'.session.getD [] = w.session.getD [] ++ group := hpending
        rw [hheld, h.1]
        simp
      · cases hi.symm.trans hi'
      · cases hi.symm.trans hi'

theorem Holds.insertRows_error {e : IndexerError} (h : Holds waiting draft i)
    (hi : i.insertRows s group = (.error e, i')) :
    if e.isRowRefusal then Holds waiting draft i'
    else i.strategy = .tolerant ∧ Holds [] (draft.map Draft.lose) i' := by
  cases draft with
  | none =>
    rw [Inserter.insertRows_of_closed h.isOpen] at hi
    cases hi
    exact h
  | some b' =>
    obtain ⟨htolerant, -⟩ := Inserter.insertRows_error h.isOpen hi
    obtain ⟨w, rfl⟩ := Inserter.eq_tolerant htolerant
    have hkind := Inserter.strategy_insertRows (.tolerant w) s group
    rw [hi] at hkind
    obtain ⟨w', rfl⟩ := Inserter.eq_tolerant hkind
    rcases Inserter.insertRows_cases h.isOpen s group with
      ⟨_, hi', -⟩ | ⟨_, _, hi', hrefusal, -, hopen, hpending⟩ | ⟨_, _, hi', hrefusal, hopen, -⟩
    · cases hi.symm.trans hi'
    · cases hi.symm.trans hi'
      rw [if_pos hrefusal]
      exact ⟨hpending.trans h.1, hopen⟩
    · cases hi.symm.trans hi'
      rw [if_neg (Bool.eq_false_iff.1 hrefusal)]
      exact ⟨rfl, Inserter.pending_of_failure h.isOpen hi hrefusal, hopen⟩

theorem Holds.flush_ok {stats : FlushStats} {s' : Store} (h : Holds waiting draft i)
    (hi : i.flush s = (.ok stats, i', s')) :
    Holds [] draft i' ∧ s'.rows = s.rows ++ waiting.flatMap Draft.rows := by
  cases i with
  | batch b =>
    obtain ⟨hrows, hcompleted, hblock⟩ := h
    have hcomplete : b.complete = waiting.flatMap Draft.rows := by
      unfold RowBuffer.complete
      rw [hrows, hcompleted, List.take_left]
    have hdrained : b.drain.rows = draft.elim [] Draft.rows := by
      show b.rows.drop b.completed = draft.elim [] Draft.rows
      rw [hrows, hcompleted, List.drop_left]
    simp only [Inserter.flush, RowBuffer.flush, hblock, hcomplete] at hi
    by_cases hwaiting : waiting = []
    · subst hwaiting
      cases hi
      exact ⟨⟨hrows, hcompleted, hblock⟩, (List.append_nil _).symm⟩
    · have hended : waiting.length ≠ 0 := fun hlength => hwaiting (List.eq_nil_of_length_eq_zero hlength)
      simp only [if_neg hended, Store.write] at hi
      cases hrefusal : s.refusal? (waiting.flatMap Draft.rows) with
      | some e =>
        rw [hrefusal] at hi
        cases hi
      | none =>
        rw [hrefusal] at hi
        cases hi
        refine ⟨⟨hdrained, rfl, ?_⟩, rfl⟩
        simp [RowBuffer.drain, hblock]
  | tolerant w =>
    rcases w.flush_cases s with ⟨-, hflush⟩ | ⟨hclosed, hflush⟩ | ⟨-, -, hflush⟩
    · simp only [Inserter.flush, hflush] at hi
      cases hi
    · obtain rfl := h.draft_eq_none hclosed
      obtain ⟨hsession, hopen⟩ := h
      simp only [Inserter.flush, hflush] at hi
      cases hi
      refine ⟨⟨rfl, hopen⟩, ?_⟩
      rw [hsession]
      simp
    · simp only [Inserter.flush, hflush] at hi
      cases hi

theorem Holds.flush_error {e : IndexerError} {s' : Store} (h : Holds waiting draft i)
    (hi : i.flush s = (.error e, i', s')) :
    s' = s ∧ if e.isRowRefusal ∨ i.strategy = .batch then Holds waiting draft i' else Holds [] draft i' := by
  cases i with
  | batch b =>
    simp only [Inserter.flush] at hi
    cases hflush : b.flush s with
    | ok result =>
      rw [hflush] at hi
      cases hi
    | error e =>
      rw [hflush] at hi
      cases hi
      rw [if_pos (.inr rfl)]
      exact ⟨rfl, h⟩
  | tolerant w =>
    rcases w.flush_cases s with ⟨-, hflush⟩ | ⟨-, hflush⟩ | ⟨hclosed, -, hflush⟩
    · simp only [Inserter.flush, hflush] at hi
      cases hi
      rw [if_pos (.inl rfl)]
      exact ⟨rfl, h⟩
    · simp only [Inserter.flush, hflush] at hi
      cases hi
    · simp only [Inserter.flush, hflush] at hi
      cases hi
      obtain rfl := h.draft_eq_none hclosed
      exact ⟨rfl, rfl, h.2⟩

end

theorem sublist_of_append {stored waiting ended : List Draft} (h : (stored ++ waiting).Sublist ended) :
    (stored ++ []).Sublist ended := by
  rw [List.append_nil]
  exact (List.sublist_append_left stored waiting).trans h

theorem fair_map {ended : List Draft} {draft : Option Draft} {f : Draft → Draft}
    (h : ∀ b ∈ ended ++ draft.toList, b.Fair strategy) (hf : ∀ b : Draft, b.Fair strategy → (f b).Fair strategy) :
    ∀ b ∈ ended ++ (draft.map f).toList, b.Fair strategy := by
  intro b hb
  rcases List.mem_append.1 hb with hb | hb
  · exact h b (List.mem_append_left _ hb)
  · cases draft with
    | none => cases hb
    | some b' =>
      rw [List.mem_singleton.1 hb]
      exact hf b' (h b' (List.mem_append_right _ (List.mem_singleton.2 rfl)))

/-! ### Calls one after another -/

theorem Sound.startBlock (h : d.Sound strategy base) : (d.step .startBlock).Sound strategy base := by
  unfold Desk.step
  dsimp only
  cases hi : d.inserter.startBlock with
  | error e => exact h
  | ok i =>
    obtain ⟨hdraft, hholds, hkind⟩ := h.holds.startBlock hi
    refine ⟨hkind.trans h.unchanged, h.rows, h.order, hholds, fun b hb => ?_⟩
    rcases List.mem_append.1 hb with hb | hb
    · exact h.fair b (List.mem_append_left _ hb)
    · rw [List.mem_singleton.1 hb]
      exact Draft.fair_empty strategy

/-- A refusal changes nothing; any other failure loses what the tolerant strategy held. -/
theorem Sound.insertRows (h : d.Sound strategy base) (group : List Row) :
    (d.step (.insertRows group)).Sound strategy base := by
  have hkind := Inserter.strategy_insertRows d.inserter d.store group
  unfold Desk.step
  dsimp only
  cases hi : d.inserter.insertRows d.store group with
  | mk result i =>
    rw [hi] at hkind
    cases result with
    | ok taken =>
      refine ⟨hkind.trans h.unchanged, h.rows, h.order, h.holds.insertRows_ok hi, ?_⟩
      exact fair_map h.fair fun b hb => hb.take group
    | error e =>
      have hafter := h.holds.insertRows_error hi
      dsimp only
      split at hafter <;> rename_i hrefusal
      · rw [if_pos hrefusal]
        exact ⟨hkind.trans h.unchanged, h.rows, h.order, hafter, h.fair⟩
      · rw [if_neg hrefusal]
        obtain ⟨htolerant, hholds⟩ := hafter
        obtain rfl : strategy = .tolerant := h.unchanged.symm.trans htolerant
        exact ⟨hkind.trans h.unchanged, h.rows, sublist_of_append h.order, hholds,
          fair_map h.fair fun b _ => b.fair_lose⟩

theorem Sound.endBlock (h : d.Sound strategy base) : (d.step .endBlock).Sound strategy base := by
  unfold Desk.step
  dsimp only
  cases hi : d.inserter.endBlock with
  | error e => exact h
  | ok i =>
    obtain ⟨hholds, hkind⟩ := h.holds.endBlock hi
    refine ⟨hkind.trans h.unchanged, h.rows, ?_, hholds, ?_⟩
    · rw [← List.append_assoc]
      exact h.order.append (List.Sublist.refl _)
    · simpa using h.fair

/-- A flush makes the waiting blocks durable, or they wait on, or the tolerant strategy has lost them. -/
theorem Sound.flush (h : d.Sound strategy base) : (d.step .flush).Sound strategy base := by
  have hkind := Inserter.strategy_flush d.inserter d.store
  unfold Desk.step
  dsimp only
  cases hi : d.inserter.flush d.store with
  | mk result after =>
    obtain ⟨i, s'⟩ := after
    rw [hi] at hkind
    cases result with
    | ok stats =>
      obtain ⟨hholds, hstored⟩ := h.holds.flush_ok hi
      refine ⟨hkind.trans h.unchanged, ?_, ?_, hholds, h.fair⟩
      · rw [hstored, h.rows, List.flatMap_append, List.append_assoc]
      · rw [List.append_nil]
        exact h.order
    | error e =>
      obtain ⟨rfl, hafter⟩ := h.holds.flush_error hi
      dsimp only
      split at hafter <;> rename_i hkept
      · rw [if_pos hkept]
        exact ⟨hkind.trans h.unchanged, h.rows, h.order, hafter, h.fair⟩
      · rw [if_neg hkept]
        exact ⟨hkind.trans h.unchanged, h.rows, sublist_of_append h.order, hafter, h.fair⟩

theorem Sound.discard (h : d.Sound strategy base) : (d.step .discard).Sound strategy base := by
  have hopened := sound_opened d.inserter.strategy d.store
  refine ⟨hopened.unchanged.trans h.unchanged, h.rows, sublist_of_append h.order, hopened.holds, fun b hb => ?_⟩
  rcases List.mem_append.1 hb with hb | hb
  · exact h.fair b (List.mem_append_left _ hb)
  · cases hb

/-- Whatever the call and its answer, the desk stays sound. -/
theorem Sound.step (h : d.Sound strategy base) (call : InserterCall) : (d.step call).Sound strategy base := by
  cases call with
  | startBlock => exact h.startBlock
  | insertRows group => exact h.insertRows group
  | endBlock => exact h.endBlock
  | flush => exact h.flush
  | discard => exact h.discard
  | disturb outage rejectedTables => exact ⟨h.unchanged, h.rows, h.order, h.holds, h.fair⟩

theorem Sound.run (h : d.Sound strategy base) (calls : List InserterCall) :
    (d.run calls).Sound strategy base := by
  induction calls generalizing d with
  | nil => exact h
  | cons call rest ih => exact ih (h.step call)

/-- **Wholeness**: whatever the calls and however the store fails in between, the store holds the rows of the
ended blocks that were flushed and no others.  A block in which no offer failed otherwise than by a refusal is
among them with all its groups or not at all, and under the batch strategy there is no other block.  A block in
which an offer failed keeps no more than the groups taken after the failure. -/
theorem ended_whole_or_torn (strategy : Strategy) (s : Store) (calls : List InserterCall) :
    let d := (opened strategy s).run calls
    d.store.rows = s.rows ++ d.stored.flatMap Draft.rows ∧ d.stored.Sublist d.ended ∧
      ∀ b ∈ d.ended, b.kept <:+ b.accepted ∧ (b.failed = false → b.kept = b.accepted) ∧
        (strategy = .batch → b.failed = false) := by
  intro d
  have hsound : d.Sound strategy s.rows := (sound_opened strategy s).run calls
  refine ⟨hsound.rows, (List.sublist_append_left d.stored d.waiting).trans hsound.order, fun b hb => ?_⟩
  have hfair := hsound.fair b (List.mem_append_left _ hb)
  exact ⟨hfair.suffix, hfair.whole, hfair.batch⟩

/-- A row of one column. -/
def numbered (n : Int64) : Row := ⟨"block_log", ["height"], [.bigint n]⟩

/-- Under the tolerant strategy a block is stored without the group that was taken before an outage. -/
theorem ended_torn :
    let d := (opened .tolerant .empty).run
      [.startBlock, .insertRows [numbered 1], .disturb true [], .insertRows [numbered 2], .disturb false [],
        .insertRows [numbered 3], .endBlock, .flush]
    d.ended.map Draft.accepted = [[[numbered 1], [numbered 3]]] ∧ d.store.rows = [numbered 3] := by
  decide +kernel

end Desk

end PoolIndexer
