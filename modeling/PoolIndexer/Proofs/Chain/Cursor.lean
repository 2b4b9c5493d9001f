import PoolIndexer.Chain.Cursor

/-!
# Proofs.Chain.Cursor — a cursor hands out the block of its height or stays

Whatever archive and node answer, one request does one of two things to a cursor.  It hands out a
block of exactly the next height and moves on by one, or it answers with an error and stands where it
stood.
-/

namespace PoolIndexer

namespace Cursor

/-- What a request may do to a cursor. -/
def Hands (c : Cursor) (result : Except NoAnswer Block) (c' : Cursor) : Prop :=
  match result with
  | .ok b => b.height = c.nextHeight ∧ c'.nextHeight.toInt = c.nextHeight.toInt + 1
  | .error _ => c'.nextHeight = c.nextHeight

/-- A request that comes back without a block has not moved the cursor. -/
theorem Hands.of_eq {c c' c'' : Cursor} {result : Except NoAnswer Block} (h : c'.Hands result c'')
    (hc : c'.nextHeight = c.nextHeight) : c.Hands result c'' := by
  unfold Hands at h ⊢
  rw [← hc]
  exact h

theorem hands_deliver (c : Cursor) (b : Block) (closes : Bool) (origin : Origin) :
    c.Hands (c.deliver b closes origin).1 (c.deliver b closes origin).2 := by
  unfold deliver
  by_cases hheight : b.height = c.nextHeight
  · rw [if_neg (fun hne => hne hheight)]
    cases hnext : Checked.add c.nextHeight 1 with
    | error o => exact rfl
    | ok next => exact ⟨hheight, Checked.add_eq_ok_iff.1 hnext⟩
  · rw [if_pos hheight]
    exact rfl

/-! ### The archive -/

/-- The archive hands out the block of the next height, or the cursor stays. -/
theorem fromArchive_cases (p : Place) (c : Cursor) :
    (∃ b c', c.fromArchive p = (.ok (some b), c') ∧ c.Hands (.ok b) c') ∨
    (∃ c', c.fromArchive p = (.ok none, c') ∧ c'.nextHeight = c.nextHeight) ∨
    ∃ e c', c.fromArchive p = (.error e, c') ∧ c'.nextHeight = c.nextHeight := by
  unfold fromArchive
  match c.archive with
  | none => exact .inr (.inl ⟨c, rfl, rfl⟩)
  | some (reader, last) =>
    dsimp only
    by_cases hlast : last.toInt < c.nextHeight.toInt
    · rw [if_pos hlast]
      exact .inr (.inl ⟨_, rfl, rfl⟩)
    · rw [if_neg hlast]
      match reader.next p c.nextHeight with
      | (.error e, reader) => exact .inr (.inr ⟨_, _, rfl, rfl⟩)
      | (.ok none, _) => exact .inr (.inl ⟨_, rfl, rfl⟩)
      | (.ok (some a), reader) =>
        dsimp only
        by_cases hheight : a.block.height = c.nextHeight
        · rw [if_neg (fun hne => hne hheight)]
          have hdeliver := hands_deliver { c with archive := some (reader, last) } a.block
            (a.closes || decide (c.lastHeight = some a.block.height)) .archive
          revert hdeliver
          cases deliver { c with archive := some (reader, last) } a.block
            (a.closes || decide (c.lastHeight = some a.block.height)) .archive with
          | mk result c' =>
            intro hdeliver
            cases result with
            | ok b => exact .inl ⟨b, c', rfl, hdeliver⟩
            | error e => exact .inr (.inr ⟨e, c', rfl, hdeliver⟩)
        · rw [if_pos hheight]
          exact .inr (.inl ⟨_, rfl, rfl⟩)

/-! ### The node -/

section

variable {σ : Type} (node : Node σ)

theorem nextHeight_fill (c : Cursor) (s : σ) : (c.fill node s).2.1.nextHeight = c.nextHeight := by
  unfold fill
  split
  · rfl
  · dsimp only
    split
    · rfl
    · split
      · rfl
      · split <;> rfl

theorem hands_fromBuffer (c : Cursor) : c.Hands c.fromBuffer.1 c.fromBuffer.2 := by
  unfold fromBuffer
  split
  · exact rfl
  · rename_i b rest _
    exact (hands_deliver { c with buffer := rest } b rest.isEmpty .node).of_eq rfl

theorem hands_fromNode (c : Cursor) (s : σ) :
    c.Hands (c.fromNode node s).1 (c.fromNode node s).2.1 := by
  unfold fromNode
  by_cases hempty : c.buffer.isEmpty = true
  · rw [if_pos hempty]
    have hfill := nextHeight_fill node c s
    revert hfill
    match c.fill node s with
    | (.error e, c', s') => exact fun hfill => hfill
    | (.ok _, c', s') => exact fun hfill => (hands_fromBuffer c').of_eq hfill
  · rw [if_neg hempty]
    exact hands_fromBuffer c

/-- **One request**: the block of the next height, or an error and no move. -/
theorem hands_next (p : Place) (c : Cursor) (s : σ) :
    c.Hands (c.next node p s).1 (c.next node p s).2.1 := by
  unfold next
  by_cases hpast : c.isPast = true
  · rw [if_pos hpast]
    exact rfl
  · rw [if_neg hpast]
    rcases fromArchive_cases p c with ⟨b, c', harchive, hhands⟩ | ⟨c', harchive, hstays⟩ |
      ⟨e, c', harchive, hstays⟩
    · rw [harchive]
      exact hhands
    · rw [harchive]
      exact (hands_fromNode node c' s).of_eq hstays
    · rw [harchive]
      exact hstays

end

/-! ### A new cursor -/

/-- A new cursor stands at the height it is asked for. -/
theorem nextHeight_start {p : Place} {batchSize : Nat} {first : Int64} {lastHeight : Option Int64}
    {c : Cursor} (h : start p batchSize first lastHeight = .ok c) : c.nextHeight = first := by
  unfold start at h
  cases hscan : Archive.scan p with
  | error e =>
    rw [hscan] at h
    cases h
  | ok bs =>
    rw [hscan] at h
    cases h
    rfl

end Cursor

end PoolIndexer
