import PoolIndexer.Proofs.Store.Wholeness

/-!
# Proofs.Store.Buffer — what becomes of every row that the batch strategy takes

A caller starts and ends blocks, offers groups of rows, flushes and discards in any order, while the
store fails and recovers.

* `Answer` and `Transcript`: an inserter on its store, with what each call has come to.
* `Transcript.Settled`, `Transcript.Waiting`: what the answers after a group say of it.  `Transcript.rowsWhere` collects
  the rows of all groups of which something is said.
* `Transcript.Tallies`: the buffer holds the rows that wait, those of ended blocks in front.
* `Transcript.rows_onceEach`: the store gets every settled row once and in order, and the buffer counts the rest.
-/

namespace PoolIndexer

/-! ### Answers -/

/-- What a call on an inserter has come to. -/
inductive Answer where
  | started
  | accepted (group : List Row)
  | ended
  | flushed
  | discarded
  /-- The call was refused, or the store has failed. -/
  | refused
  /-- The store begins or ceases to fail. -/
  | disturbed
  deriving DecidableEq

/-- The rows of a group that is accepted with this answer. -/
def Answer.rows : Answer → List Row
  | .accepted group => group
  | _ => []

/-- An inserter on a store, with the answers so far. -/
structure Transcript where
  inserter : Inserter
  store : Store
  answers : List Answer

namespace Transcript

/-- The block of a group has ended before a flush that succeeded, and nothing was discarded until then. -/
def Settled (later : List Answer) : Prop :=
  ∃ n, n < later.length ∧ later[n]? = some .flushed ∧ .ended ∈ later.take n ∧ .discarded ∉ later.take n

instance : DecidablePred Settled := fun later =>
  inferInstanceAs (Decidable (∃ n, n < later.length ∧ later[n]? = _ ∧ _))

/-- A group is neither stored nor discarded. -/
def Waiting (later : List Answer) : Prop := ¬ Settled later ∧ .discarded ∉ later

instance : DecidablePred Waiting := fun _ => inferInstanceAs (Decidable (_ ∧ _))

/-- The group waits, and its block has ended. -/
def Complete (later : List Answer) : Prop := Waiting later ∧ .ended ∈ later

instance : DecidablePred Complete := fun _ => inferInstanceAs (Decidable (_ ∧ _))

/-- The group waits in a block that is still open. -/
def Unfinished (later : List Answer) : Prop := .discarded ∉ later ∧ .ended ∉ later

instance : DecidablePred Unfinished := fun _ => inferInstanceAs (Decidable (_ ∧ _))

/-- The rows of the accepted groups of which `p` holds by the answers behind them, in the order of acceptance. -/
def rowsWhere (p : List Answer → Prop) [DecidablePred p] : List Answer → List Row
  | [] => []
  | .accepted group :: later => (if p later then group else []) ++ rowsWhere p later
  | _ :: later => rowsWhere p later

/-! ### One more answer -/

section

variable {answers : List Answer} {a : Answer}

theorem settled_concat : Settled (answers ++ [a]) ↔
    Settled answers ∨ a = .flushed ∧ .ended ∈ answers ∧ .discarded ∉ answers := by
  constructor
  · rintro ⟨n, hn, hflushed, hended, hdiscarded⟩
    rw [List.length_append, List.length_singleton] at hn
    rcases Nat.lt_or_eq_of_le (Nat.le_of_lt_succ hn) with hlt | rfl
    · rw [List.getElem?_append_left hlt] at hflushed
      rw [List.take_append_of_le_length (Nat.le_of_lt hlt)] at hended hdiscarded
      exact .inl ⟨n, hlt, hflushed, hended, hdiscarded⟩
    · rw [List.getElem?_concat_length] at hflushed
      rw [List.take_left] at hended hdiscarded
      exact .inr ⟨Option.some.inj hflushed, hended, hdiscarded⟩
  · rintro (⟨n, hn, hflushed, hended, hdiscarded⟩ | ⟨rfl, hended, hdiscarded⟩)
    · refine ⟨n, ?_, ?_, ?_⟩
      · rw [List.length_append]
        omega
      · rwa [List.getElem?_append_left hn]
      · rw [List.take_append_of_le_length (Nat.le_of_lt hn)]
        exact ⟨hended, hdiscarded⟩
    · refine ⟨answers.length, by simp, List.getElem?_concat_length, ?_⟩
      rw [List.take_left]
      exact ⟨hended, hdiscarded⟩

/-- A group that waits is settled by a flush if its block has ended. -/
theorem settled_concat_flushed : Settled (answers ++ [.flushed]) ↔ Settled answers ∨ Complete answers := by
  rw [settled_concat]
  unfold Complete Waiting
  grind

theorem waiting_concat (hflushed : a ≠ .flushed) (hdiscarded : a ≠ .discarded) :
    Waiting (answers ++ [a]) ↔ Waiting answers := by
  unfold Waiting
  rw [settled_concat]
  grind

theorem not_waiting_concat_discarded : ¬ Waiting (answers ++ [.discarded]) :=
  fun h => h.2 (List.mem_append_right _ (List.mem_singleton.2 rfl))

theorem not_settled_of_unfinished (h : Unfinished answers) : ¬ Settled answers := by
  rintro ⟨n, -, -, hended, -⟩
  exact h.2 (List.mem_of_mem_take hended)

theorem waiting_iff : Waiting answers ↔ Complete answers ∨ Unfinished answers := by
  have hnot : Unfinished answers → ¬ Settled answers := not_settled_of_unfinished
  unfold Complete Waiting
  unfold Unfinished at hnot ⊢
  grind

theorem waiting_concat_flushed : Waiting (answers ++ [.flushed]) ↔ Unfinished answers := by
  have hnot : Unfinished answers → ¬ Settled answers := not_settled_of_unfinished
  unfold Waiting
  rw [settled_concat]
  unfold Unfinished at hnot ⊢
  grind

theorem complete_concat (hflushed : a ≠ .flushed) (hdiscarded : a ≠ .discarded) (hended : a ≠ .ended) :
    Complete (answers ++ [a]) ↔ Complete answers := by
  unfold Complete
  rw [waiting_concat hflushed hdiscarded]
  grind

theorem complete_concat_ended : Complete (answers ++ [.ended]) ↔ Waiting answers := by
  unfold Complete
  rw [waiting_concat (by simp) (by simp)]
  grind

theorem not_complete_concat_flushed : ¬ Complete (answers ++ [.flushed]) := by
  rintro ⟨hwaiting, hended⟩
  have hunfinished := waiting_concat_flushed.1 hwaiting
  rw [List.mem_append, List.mem_singleton] at hended
  exact hunfinished.2 (hended.resolve_right nofun)

/-- What is said of a group holds of the groups after it, unless something was discarded in between. -/
theorem Settled.of_suffix {later rest : List Answer} (h : Settled later) (hsuffix : later <:+ rest)
    (hdiscarded : .discarded ∉ rest) : Settled rest := by
  obtain ⟨n, hn, hflushed, hended, -⟩ := h
  obtain ⟨front, rfl⟩ := hsuffix
  refine ⟨front.length + n, ?_, ?_, ?_, fun hmem => hdiscarded (List.mem_of_mem_take hmem)⟩
  · rw [List.length_append]
    omega
  · rwa [List.getElem?_append_right (Nat.le_add_right ..), Nat.add_sub_cancel_left]
  · rw [List.take_length_add_append]
    exact List.mem_append_right _ hended

end

/-! ### Rows by what is said of them -/

section

variable {p q : List Answer → Prop} [DecidablePred p] [DecidablePred q]

theorem rowsWhere_eq_nil {answers : List Answer} (h : ∀ later, later <:+ answers → ¬ p later) :
    rowsWhere p answers = [] := by
  induction answers with
  | nil => rfl
  | cons a rest ih =>
    have hrest := ih fun later hlater => h later (hlater.trans (List.suffix_cons a rest))
    cases a with
    | accepted group =>
      unfold rowsWhere
      rw [if_neg (h rest (List.suffix_cons _ rest)), hrest]
      rfl
    | _ => exact hrest

/-- Rows of groups of two kinds stand one kind after the other if no group of the first kind comes after one of
the second. -/
theorem rowsWhere_or (h : ∀ later rest, q rest → later <:+ rest → ¬ p later) (answers : List Answer) :
    rowsWhere (fun later => p later ∨ q later) answers = rowsWhere p answers ++ rowsWhere q answers := by
  induction answers with
  | nil => rfl
  | cons a rest ih =>
    cases a with
    | accepted group =>
      unfold rowsWhere
      rw [ih]
      by_cases hq : q rest
      · have hp : ¬ p rest := h rest rest hq (List.suffix_refl rest)
        have hnone : rowsWhere p rest = [] := rowsWhere_eq_nil fun later hlater => h later rest hq hlater
        simp [hp, hq, hnone]
      · simp [hq]
    | _ => exact ih

/-- One more answer is heard by every group before it. -/
theorem rowsWhere_concat {a : Answer} (h : ∀ later, p (later ++ [a]) ↔ q later) (answers : List Answer) :
    rowsWhere p (answers ++ [a]) = rowsWhere q answers ++ rowsWhere p [a] := by
  induction answers with
  | nil => rfl
  | cons b rest ih =>
    cases b with
    | accepted group =>
      simp only [List.cons_append, rowsWhere, ih, h, List.append_assoc]
    | _ => exact ih

end

section

variable {answers : List Answer} {a : Answer}

/-- After an answer that leaves no group with `p` there are no rows of such groups. -/
theorem rowsWhere_concat_eq_nil {p : List Answer → Prop} [DecidablePred p] (h : ∀ later, ¬ p (later ++ [a]))
    (ha : a.rows = []) : rowsWhere p (answers ++ [a]) = [] := by
  have hlast : rowsWhere p [a] = [] := by
    cases a with
    | accepted group =>
      subst ha
      exact (List.append_nil _).trans (ite_self _)
    | _ => rfl
  rw [rowsWhere_concat (q := fun _ => False) fun later => iff_false_intro (h later), hlast, List.append_nil]
  exact rowsWhere_eq_nil fun _ _ hfalse => hfalse

theorem rowsWhere_settled_concat (hflushed : a ≠ .flushed) :
    rowsWhere Settled (answers ++ [a]) = rowsWhere Settled answers := by
  have hlast : rowsWhere Settled [a] = [] := rowsWhere_eq_nil fun later hlater hsettled => by
    obtain ⟨n, hn, hanswer, hended, -⟩ := hsettled
    have hlength := hlater.length_le
    rw [List.length_singleton] at hlength
    obtain rfl : n = 0 := by omega
    cases hended
  have hsame : ∀ later, Settled (later ++ [a]) ↔ Settled later := fun later => by
    rw [settled_concat]
    exact or_iff_left fun h => hflushed h.1
  rw [rowsWhere_concat hsame, hlast, List.append_nil]

/-- A flush that succeeds stores what is complete, behind all that is stored. -/
theorem rowsWhere_settled_flushed :
    rowsWhere Settled (answers ++ [.flushed]) = rowsWhere Settled answers ++ rowsWhere Complete answers := by
  rw [rowsWhere_concat fun _ => settled_concat_flushed, rowsWhere_or]
  · exact List.append_nil _
  · rintro later rest ⟨⟨hnot, hdiscarded⟩, -⟩ hlater hsettled
    exact hnot (hsettled.of_suffix hlater hdiscarded)

/-- What waits is what is complete, and behind it what belongs to the open block. -/
theorem rowsWhere_waiting : rowsWhere Waiting answers = rowsWhere Complete answers ++ rowsWhere Unfinished answers := by
  rw [← rowsWhere_or fun later rest hunfinished hlater hcomplete =>
    hunfinished.2 (hlater.subset hcomplete.2)]
  congr 1
  exact funext fun _ => propext waiting_iff

theorem rowsWhere_waiting_concat (hflushed : a ≠ .flushed) (hdiscarded : a ≠ .discarded) :
    rowsWhere Waiting (answers ++ [a]) = rowsWhere Waiting answers ++ a.rows := by
  have hlast : rowsWhere Waiting [a] = a.rows := by
    cases a with
    | accepted group =>
      have hwaiting : Waiting [] := by decide
      exact (List.append_nil _).trans (if_pos hwaiting)
    | _ => rfl
  rw [rowsWhere_concat fun _ => waiting_concat hflushed hdiscarded, hlast]

theorem rowsWhere_waiting_flushed :
    rowsWhere Waiting (answers ++ [.flushed]) = rowsWhere Unfinished answers :=
  (rowsWhere_concat (fun _ => waiting_concat_flushed) answers).trans (List.append_nil _)

theorem rowsWhere_complete_concat (hflushed : a ≠ .flushed) (hdiscarded : a ≠ .discarded) (hended : a ≠ .ended) :
    rowsWhere Complete (answers ++ [a]) = rowsWhere Complete answers := by
  have hlast : rowsWhere Complete [a] = [] := by
    cases a with
    | accepted group =>
      have hcomplete : ¬ Complete [] := by decide
      exact (List.append_nil _).trans (if_neg hcomplete)
    | _ => rfl
  rw [rowsWhere_concat fun _ => complete_concat hflushed hdiscarded hended, hlast, List.append_nil]

/-- The end of a block completes all that waits. -/
theorem rowsWhere_complete_ended : rowsWhere Complete (answers ++ [.ended]) = rowsWhere Waiting answers :=
  (rowsWhere_concat (fun _ => complete_concat_ended) answers).trans (List.append_nil _)

end

/-! ### Calls one after another -/

/-- The batch strategy on a store, before the first call. -/
def opened (s : Store) : Transcript := ⟨.ofStrategy .batch, s, []⟩

/-- What a call comes to, and what there is after it. -/
def answer (i : Inserter) (s : Store) : InserterCall → Answer × Inserter × Store
  | .startBlock =>
    match i.startBlock with
    | .ok i => (.started, i, s)
    | .error _ => (.refused, i, s)
  | .insertRows group =>
    match i.insertRows s group with
    | (.ok _, i) => (.accepted group, i, s)
    | (.error _, i) => (.refused, i, s)
  | .endBlock =>
    match i.endBlock with
    | .ok i => (.ended, i, s)
    | .error _ => (.refused, i, s)
  | .flush =>
    match i.flush s with
    | (.ok _, i, s) => (.flushed, i, s)
    | (.error _, i, s) => (.refused, i, s)
  | .discard => (.discarded, i.discard, s)
  | .disturb outage rejectedTables => (.disturbed, i, { s with outage, rejectedTables })

def step (t : Transcript) (call : InserterCall) : Transcript :=
  let (a, i, s) := answer t.inserter t.store call
  ⟨i, s, t.answers ++ [a]⟩

def run (t : Transcript) (calls : List InserterCall) : Transcript := calls.foldl step t

/-- The buffer holds what waits, and it knows how much of that is complete.  If no block has ended since the last
flush then nothing is, so the flush may leave the store alone. -/
structure Buffers (answers : List Answer) (b : RowBuffer) : Prop where
  rows : b.rows = rowsWhere Waiting answers
  completed : b.completed = (rowsWhere Complete answers).length
  ended : b.block.ended = 0 → b.completed = 0

/-- Beside the rows from before, the store has those that are settled. -/
structure Tallies (base : List Row) (t : Transcript) : Prop where
  stored : t.store.rows = base ++ rowsWhere Settled t.answers
  buffers : ∃ b, t.inserter = .batch b ∧ Buffers t.answers b

section

variable {answers : List Answer} {b : RowBuffer}

/-- The slice of a flush never goes out of range. -/
theorem Buffers.completed_le (h : Buffers answers b) : b.completed ≤ b.rows.length := by
  rw [h.rows, h.completed, rowsWhere_waiting, List.length_append]
  exact Nat.le_add_right ..

theorem Buffers.complete_eq (h : Buffers answers b) : b.complete = rowsWhere Complete answers := by
  unfold RowBuffer.complete
  rw [h.rows, h.completed, rowsWhere_waiting, List.take_left]

/-- An answer that neither moves a row nor ends a block changes nothing but whether a block is open. -/
theorem Buffers.idle (h : Buffers answers b) {a : Answer} (hflushed : a ≠ .flushed) (hdiscarded : a ≠ .discarded)
    (hended : a ≠ .ended) (hrows : a.rows = []) {isOpen : Bool} :
    Buffers (answers ++ [a]) { b with block := { b.block with isOpen } } := by
  refine ⟨?_, ?_, h.ended⟩
  · rw [rowsWhere_waiting_concat hflushed hdiscarded, hrows, List.append_nil]
    exact h.rows
  · rw [rowsWhere_complete_concat hflushed hdiscarded hended]
    exact h.completed

theorem Buffers.push (h : Buffers answers b) (group : List Row) :
    Buffers (answers ++ [.accepted group]) { b with rows := b.rows ++ group } := by
  refine ⟨?_, ?_, h.ended⟩
  · rw [rowsWhere_waiting_concat (by simp) (by simp), h.rows]
    rfl
  · rw [rowsWhere_complete_concat (by simp) (by simp) (by simp)]
    exact h.completed

theorem Buffers.endBlock (h : Buffers answers b) (ended : Nat) :
    Buffers (answers ++ [.ended]) ⟨b.rows, b.rows.length, ⟨false, ended + 1⟩⟩ := by
  refine ⟨?_, ?_, nofun⟩
  · rw [rowsWhere_waiting_concat (by simp) (by simp), h.rows]
    exact (List.append_nil _).symm
  · rw [rowsWhere_complete_ended, h.rows]

theorem Buffers.drain (h : Buffers answers b) : Buffers (answers ++ [.flushed]) b.drain := by
  refine ⟨?_, ?_, fun _ => rfl⟩
  · show b.rows.drop b.completed = _
    rw [rowsWhere_waiting_flushed, h.rows, h.completed, rowsWhere_waiting, List.drop_left]
  · rw [rowsWhere_concat_eq_nil (fun _ => not_complete_concat_flushed) rfl]
    rfl

theorem buffers_empty (answers : List Answer) : Buffers (answers ++ [.discarded]) .empty := by
  have hcomplete : ∀ later, ¬ Complete (later ++ [.discarded]) := fun _ h => not_waiting_concat_discarded h.1
  refine ⟨?_, ?_, fun _ => rfl⟩
  · rw [rowsWhere_concat_eq_nil (fun _ => not_waiting_concat_discarded) rfl]
    rfl
  · rw [rowsWhere_concat_eq_nil hcomplete rfl]
    rfl

end

/-! ### What the batch strategy does with each call -/

section

variable (b : RowBuffer) (s : Store)

theorem answer_startBlock : answer (.batch b) s .startBlock =
    if b.block.isOpen then (.refused, .batch b, s)
    else (.started, .batch { b with block := { b.block with isOpen := true } }, s) := by
  cases hopen : b.block.isOpen <;>
    simp only [answer, Inserter.startBlock, RowBuffer.startBlock, BlockState.start, hopen] <;> rfl

theorem answer_insertRows (group : List Row) : answer (.batch b) s (.insertRows group) =
    if b.block.isOpen then (.accepted group, .batch { b with rows := b.rows ++ group }, s)
    else (.refused, .batch b, s) := by
  cases hopen : b.block.isOpen <;>
    simp only [answer, Inserter.insertRows, RowBuffer.push, BlockState.requireOpen, hopen] <;> rfl

theorem answer_endBlock : answer (.batch b) s .endBlock =
    if b.block.isOpen then (.ended, .batch ⟨b.rows, b.rows.length, ⟨false, b.block.ended + 1⟩⟩, s)
    else (.refused, .batch b, s) := by
  cases hopen : b.block.isOpen <;>
    simp only [answer, Inserter.endBlock, RowBuffer.endBlock, BlockState.finish, hopen] <;> rfl

/-- A flush that the store refuses leaves the store and the buffer as they were. -/
theorem flush_cases :
    (b.block.ended = 0 ∧ (Inserter.batch b).flush s = (.ok ⟨0, b.complete.length, 0⟩, .batch b, s)) ∨
    (b.block.ended ≠ 0 ∧ (Inserter.batch b).flush s =
      (.ok ⟨b.block.ended, b.complete.length, 0⟩, .batch b.drain, { s with rows := s.rows ++ b.complete })) ∨
    ∃ e, (Inserter.batch b).flush s = (.error e, .batch b, s) := by
  unfold Inserter.flush RowBuffer.flush
  by_cases hended : b.block.ended = 0
  · simp only [if_pos hended]
    exact .inl ⟨hended, trivial⟩
  · simp only [if_neg hended, Store.write]
    cases s.refusal? b.complete with
    | none => exact .inr (.inl ⟨hended, rfl⟩)
    | some e => exact .inr (.inr ⟨.store e, rfl⟩)

end

section

variable {base : List Row} {answers : List Answer} {b : RowBuffer} {s : Store}

/-- A store that does not refuse what is complete gets it. -/
theorem Buffers.flush_of_taken (h : Buffers answers b) (hs : s.refusal? (rowsWhere Complete answers) = none) :
    ∃ stats i, (Inserter.batch b).flush s =
      (.ok stats, i, { s with rows := s.rows ++ rowsWhere Complete answers }) := by
  rw [← h.complete_eq] at hs ⊢
  unfold Inserter.flush RowBuffer.flush
  by_cases hended : b.block.ended = 0
  · have hnone : b.complete = [] := by
      rw [RowBuffer.complete, h.ended hended, List.take_zero]
    simp only [if_pos hended, hnone, List.append_nil]
    exact ⟨_, _, rfl⟩
  · simp only [if_neg hended, Store.write, hs]
    exact ⟨_, _, rfl⟩

theorem tallies_flush (hstored : s.rows = base ++ rowsWhere Settled answers) (h : Buffers answers b) :
    let (a, i, s') := answer (.batch b) s .flush
    Tallies base ⟨i, s', answers ++ [a]⟩ := by
  unfold answer
  rcases flush_cases b s with ⟨hended, hflush⟩ | ⟨-, hflush⟩ | ⟨e, hflush⟩
  · -- no block has ended, so nothing is complete and nothing had to be written
    have hnone : rowsWhere Complete answers = [] :=
      List.eq_nil_of_length_eq_zero (h.completed.symm.trans (h.ended hended))
    have hunfinished : rowsWhere Waiting answers = rowsWhere Unfinished answers := by
      rw [rowsWhere_waiting, hnone]
      rfl
    have hcomplete : rowsWhere Complete (answers ++ [.flushed]) = [] :=
      rowsWhere_concat_eq_nil (fun _ => not_complete_concat_flushed) rfl
    rw [hflush]
    refine ⟨?_, b, rfl, ?_, ?_, h.ended⟩
    · rw [rowsWhere_settled_flushed, hnone, List.append_nil]
      exact hstored
    · rw [rowsWhere_waiting_flushed, ← hunfinished]
      exact h.rows
    · rw [hcomplete]
      exact h.ended hended
  · rw [hflush]
    refine ⟨?_, b.drain, rfl, h.drain⟩
    rw [rowsWhere_settled_flushed, ← h.complete_eq, ← List.append_assoc, ← hstored]
  · rw [hflush]
    refine ⟨?_, b, rfl, h.idle (by simp) (by simp) (by simp) rfl⟩
    rw [rowsWhere_settled_concat (by simp)]
    exact hstored

theorem tallies_answer (hstored : s.rows = base ++ rowsWhere Settled answers) (h : Buffers answers b)
    (call : InserterCall) :
    let (a, i, s') := answer (.batch b) s call
    Tallies base ⟨i, s', answers ++ [a]⟩ := by
  -- only a flush settles rows
  have hkept : ∀ {a : Answer}, a ≠ .flushed → s.rows = base ++ rowsWhere Settled (answers ++ [a]) := fun ha => by
    rw [rowsWhere_settled_concat ha]
    exact hstored
  have hrefused : Tallies base ⟨.batch b, s, answers ++ [.refused]⟩ :=
    ⟨hkept (by simp), b, rfl, h.idle (by simp) (by simp) (by simp) rfl⟩
  cases call with
  | startBlock =>
    rw [answer_startBlock]
    cases b.block.isOpen with
    | true => exact hrefused
    | false => exact ⟨hkept (by simp), _, rfl, h.idle (by simp) (by simp) (by simp) rfl⟩
  | insertRows group =>
    rw [answer_insertRows]
    cases b.block.isOpen with
    | true => exact ⟨hkept (by simp), _, rfl, h.push group⟩
    | false => exact hrefused
  | endBlock =>
    rw [answer_endBlock]
    cases b.block.isOpen with
    | true => exact ⟨hkept (by simp), _, rfl, h.endBlock b.block.ended⟩
    | false => exact hrefused
  | flush => exact tallies_flush hstored h
  | discard => exact ⟨hkept (by simp), _, rfl, buffers_empty answers⟩
  | disturb outage rejectedTables =>
    exact ⟨hkept (by simp), b, rfl, h.idle (by simp) (by simp) (by simp) rfl⟩

variable {t : Transcript}

theorem tallies_opened (s : Store) : Tallies s.rows (opened s) :=
  ⟨(List.append_nil _).symm, .empty, rfl, rfl, rfl, fun _ => rfl⟩

theorem Tallies.step (h : Tallies base t) (call : InserterCall) : Tallies base (t.step call) := by
  obtain ⟨hstored, b, hinserter, hbuffers⟩ := h
  unfold Transcript.step
  rw [hinserter]
  exact tallies_answer hstored hbuffers call

theorem Tallies.run (h : Tallies base t) (calls : List InserterCall) : Tallies base (t.run calls) := by
  induction calls generalizing t with
  | nil => exact h
  | cons call rest ih => exact ih (h.step call)

end

/-- **Once each**: whatever the calls and however the store fails in between, the store gets the rows of the groups
that are settled, in the order in which they were taken and each once.  The buffer counts the rows that are neither
stored nor discarded, and no more of them are complete than it holds.  A flush that fails changes neither the store
nor the buffer, and as soon as the store takes what is complete a flush writes just that. -/
theorem rows_onceEach (s : Store) (calls : List InserterCall) :
    let t := (opened s).run calls
    t.store.rows = s.rows ++ rowsWhere Settled t.answers ∧
      t.inserter.pendingRows = (rowsWhere Waiting t.answers).length ∧
      (∃ b, t.inserter = .batch b ∧ b.completed ≤ b.rows.length) ∧
      (∀ e i s', t.inserter.flush t.store = (.error e, i, s') → i = t.inserter ∧ s' = t.store) ∧
      ∀ s', s'.refusal? (rowsWhere Complete t.answers) = none → ∃ stats i,
        t.inserter.flush s' = (.ok stats, i, { s' with rows := s'.rows ++ rowsWhere Complete t.answers }) := by
  intro t
  have htallies : Tallies s.rows t := (tallies_opened s).run calls
  obtain ⟨hstored, b, hinserter, hbuffers⟩ := htallies
  refine ⟨hstored, ?_, ⟨b, hinserter, hbuffers.completed_le⟩, fun e i s' hflush => ?_, fun s' hs' => ?_⟩
  · rw [hinserter, ← hbuffers.rows]
    rfl
  · rw [hinserter] at hflush ⊢
    rcases flush_cases b t.store with ⟨-, hok⟩ | ⟨-, hok⟩ | ⟨e', hfailed⟩
    · cases hok.symm.trans hflush
    · cases hok.symm.trans hflush
    · cases hfailed.symm.trans hflush
      exact ⟨rfl, rfl⟩
  · rw [hinserter]
    exact hbuffers.flush_of_taken hs'

/-- An outage meets a buffer that holds a complete block and an open one, and passes. -/
theorem rows_throughOutage :
    let t := (opened .empty).run [.startBlock, .insertRows [Desk.numbered 1], .endBlock, .flush, .startBlock,
      .insertRows [Desk.numbered 2], .endBlock, .startBlock, .insertRows [Desk.numbered 3], .disturb true []]
    let calm : Store := { Store.empty with rows := [Desk.numbered 1] }
    t.store.rows = [Desk.numbered 1] ∧ t.inserter.pendingRows = 2 ∧
      (∃ i s', t.inserter.flush t.store = (.error (.store Store.writeFailure), i, s') ∧ i = t.inserter ∧
        s' = t.store) ∧
      calm.refusal? [Desk.numbered 2] = none ∧ ∃ stats i,
        t.inserter.flush calm = (.ok stats, i, { calm with rows := [Desk.numbered 1, Desk.numbered 2] }) := by
  intro t calm
  have hflush : t.inserter.flush t.store = (.error (.store Store.writeFailure), t.inserter, t.store) := rfl
  have hsettled : rowsWhere Settled t.answers = [Desk.numbered 1] := by decide +kernel
  have hwaiting : (rowsWhere Waiting t.answers).length = 2 := by decide +kernel
  have hcomplete : rowsWhere Complete t.answers = [Desk.numbered 2] := by decide +kernel
  obtain ⟨hrows, hpending, -, hfailed, htaken⟩ := rows_onceEach .empty [.startBlock, .insertRows [Desk.numbered 1],
    .endBlock, .flush, .startBlock, .insertRows [Desk.numbered 2], .endBlock, .startBlock,
    .insertRows [Desk.numbered 3], .disturb true []]
  obtain ⟨hinserter, hstore⟩ := hfailed _ _ _ hflush
  have hlater := htaken calm (hcomplete ▸ rfl)
  rw [hcomplete] at hlater
  exact ⟨hrows.trans hsettled, hpending.trans hwaiting, ⟨_, _, hflush, hinserter, hstore⟩, rfl, hlater⟩

end Transcript

end PoolIndexer
