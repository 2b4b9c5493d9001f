import Mathlib.Data.List.Induction
import PoolIndexer.Proofs.Chain.Archive.Tiles

/-!
# Proofs.Chain.Archive.Sessions — an archive that is written in interrupted sessions

Each session opens the folder, goes on at the height after the last complete batch, appends blocks of one chain
and is cut off; something may be left of the batch that it was writing.

* `Tiled q`: what sessions leave; besides `q` tiles there is nothing that opening does not discard.
* `run_tiled`, `sessions_tiled`: one session, and sessions one after the other.
* `sessions_tile`: which batches there are, and what is read from them.
-/

namespace PoolIndexer.Archive

/-- A session that is cut off. -/
structure Session where
  /-- How many blocks are appended. -/
  count : Nat
  /-- What is left of a batch that is being written. -/
  torn : Item
  isFile : ∀ items, torn ≠ .folder items

/-- What sessions have come to. -/
structure History where
  place : Place
  /-- The greatest height that a session has been given to append, or the one below the first if there is none. -/
  greatest : Int
  /-- The first failure. -/
  fault : Option (Stop ChainError)

/-- The writer is lost; of the batch that it is writing something is left. -/
def Writer.abandon (w : Writer) (torn : Item) : Place → Place
  | .folder f =>
    match w.current with
    | some b => .folder (f.put b.name torn)
    | none => .folder f
  | p => p

def failure? : Except (Stop ChainError) Unit → Option (Stop ChainError)
  | .ok _ => none
  | .error e => some e

section

variable (chain : Int64 → Block) (first : Int64) (size : Nat)

/-- One session, from opening the folder to the crash. -/
def Session.run (h : History) (x : Session) : History :=
  match openForWriting h.place with
  | (.error e, p) => { h with place := p, fault := h.fault <|> some (.error e) }
  | (.ok bs, p) =>
    let low := resumeHeight bs first
    let (result, w, p) := (Writer.ofSize size low).appendAll p (stretch chain low x.count)
    ⟨w.abandon x.torn p, max h.greatest (low.toInt + x.count - 1), h.fault <|> failure? result⟩

/-- Sessions one after the other on a folder that is empty at first. -/
def sessions (xs : List Session) : History :=
  xs.foldl (Session.run chain first size) ⟨.folder [], first.toInt - 1, none⟩

end

/-! ### What a session leaves -/

variable {chain : Int64 → Block} {first : Int64} {size : Nat}

/-- The complete batches of the folder are the first `q` tiles, and what is left besides can be discarded. -/
structure Tiled (chain : Int64 → Block) (first : Int64) (size q : Nat) (f : Folder) : Prop where
  discard_eq : discard f = tiling chain first size q
  unstuck : f.any isStuck = false

section

variable (hfirst : 1 ≤ first.toInt) (hsize : 1 ≤ size)

include hfirst hsize

/-- After a crash the tiles are there, and the open batch can be discarded. -/
theorem Written.abandon {q r : Nat} {w : Writer} {f : Folder} (h : Written chain first size q r w f)
    (hroom : first.toInt + (size * q : Nat) ≤ 10 ^ 12) (x : Session) :
    ∃ f', w.abandon x.torn (.folder f) = .folder f' ∧ Tiled chain first size q f' := by
  have hcurrent := h.current_eq
  have hfolder := h.folder_eq
  have htiling : discard (tiling chain first size q) = tiling chain first size q := discard_tiling hfirst hsize hroom
  have hunstuck : (tiling chain first size q).any isStuck = false := any_isStuck_tiling hfirst hsize hroom
  by_cases hr : r = 0
  · rw [if_pos hr] at hcurrent hfolder
    rw [List.append_nil] at hfolder
    rw [hfolder]
    refine ⟨tiling chain first size q, ?_, htiling, hunstuck⟩
    unfold Writer.abandon
    rw [hcurrent]
  · rw [if_neg hr] at hcurrent hfolder
    have hfresh : ∀ e ∈ tiling chain first size q, e.1 ≠ openName (tileLast first size q) :=
      ne_openName_of_mem_tiling _
    have hfile : isStuck (openName (tileLast first size q), x.torn) = false := by
      unfold isStuck
      cases htorn : x.torn with
      | folder items => exact absurd htorn (x.isFile items)
      | plain text => simp
      | packed text => simp
    refine ⟨tiling chain first size q ++ [(openName (tileLast first size q), x.torn)], ?_, ?_, ?_⟩
    · unfold Writer.abandon
      rw [hcurrent, hfolder]
      dsimp only
      rw [Folder.put, erase_concat hfresh]
    · unfold discard at htiling ⊢
      rw [List.filter_append, htiling]
      simp [isOpenName_openName]
    · rw [List.any_append, hunstuck]
      simp [hfile]

theorem openForWriting_tiled {f : Folder} {q : Nat} (htiled : Tiled chain first size q f)
    (hroom : first.toInt + (size * q : Nat) ≤ 10 ^ 12) :
    openForWriting (.folder f) =
      (.ok ((List.range q).map (tileBatch first size)), .folder (tiling chain first size q)) := by
  unfold openForWriting
  dsimp only
  rw [htiled.unstuck, if_neg Bool.false_ne_true, htiled.discard_eq, batches_tiling hfirst hsize hroom]

variable {h : History} {f : Folder} {q : Nat} (hplace : h.place = .folder f) (htiled : Tiled chain first size q f)
  (x : Session)

include hplace htiled

theorem greatest_run (hroom : first.toInt + (size * q : Nat) ≤ 10 ^ 12) :
    (x.run chain first size h).greatest = max h.greatest (first.toInt + (size * q + x.count : Nat) - 1) := by
  have hlow : (first + Int64.ofNat (size * q)).toInt = first.toInt + (size * q : Nat) :=
    Node.toInt_add_ofNat (by omega) (by omega)
  unfold Session.run
  rw [hplace, openForWriting_tiled hfirst hsize htiled hroom]
  dsimp only
  rw [resumeHeight_tiling hsize q, hlow]
  omega

/-- **One session**: nothing fails, and the tiles that it has completed are there. -/
theorem run_tiled (hchain : Chained chain first) (hroom : first.toInt + (size * q + x.count : Nat) + size ≤ 10 ^ 12) :
    ∃ f', x.run chain first size h = ⟨.folder f', (x.run chain first size h).greatest, h.fault⟩ ∧
      Tiled chain first size ((size * q + x.count) / size) f' := by
  have hnew : Written chain first size q 0 (Writer.ofSize size (first + Int64.ofNat (size * q)))
      (tiling chain first size q) := by
    refine ⟨?_, rfl, hsize, rfl, (List.append_nil _).symm⟩
    show max size 1 = size
    omega
  obtain ⟨q', r', w', f', happend, hcount, h'⟩ := hnew.appendAll (n := x.count) hfirst hchain (by omega)
  have happend' : (Writer.ofSize size (first + Int64.ofNat (size * q))).appendAll (.folder (tiling chain first size q))
      (stretch chain (first + Int64.ofNat (size * q)) x.count) = (.ok (), w', .folder f') := happend
  obtain ⟨f'', habandon, htiled'⟩ := h'.abandon hfirst hsize (by omega) x
  have hq : (size * q + x.count) / size = q' := by
    have hr := h'.lt_size
    rw [show size * q + x.count = r' + size * q' by omega, Nat.add_mul_div_left _ _ hsize, Nat.div_eq_of_lt hr,
      Nat.zero_add]
  refine ⟨f'', ?_, hq ▸ htiled'⟩
  unfold Session.run
  rw [hplace, openForWriting_tiled hfirst hsize htiled (by omega)]
  dsimp only
  rw [resumeHeight_tiling hsize q, happend']
  dsimp only
  rw [habandon, failure?, show (h.fault <|> none) = h.fault by simp]

omit hplace htiled in
/-- **Sessions one after the other**: nothing fails, and the folder is tiled up to the greatest height. -/
theorem sessions_tiled (hchain : Chained chain first) (xs : List Session)
    (hroom : (sessions chain first size xs).greatest + size < 10 ^ 12) :
    first.toInt - 1 ≤ (sessions chain first size xs).greatest ∧
      ∃ f, sessions chain first size xs = ⟨.folder f, (sessions chain first size xs).greatest, none⟩ ∧
        Tiled chain first size (((sessions chain first size xs).greatest - first.toInt + 1).toNat / size) f := by
  induction xs using List.reverseRecOn with
  | nil =>
    refine ⟨Int.le_refl _, [], rfl, ?_, rfl⟩
    have hnone : (first.toInt - 1 - first.toInt + 1).toNat = 0 := by omega
    show discard [] = tiling chain first size ((first.toInt - 1 - first.toInt + 1).toNat / size)
    rw [hnone, Nat.zero_div]
    rfl
  | append_singleton xs x ih =>
    have hstep : sessions chain first size (xs ++ [x]) = x.run chain first size (sessions chain first size xs) := by
      rw [sessions, List.foldl_append, List.foldl_cons, List.foldl_nil, sessions]
    rw [hstep] at hroom ⊢
    generalize hbefore : sessions chain first size xs = before at hroom ih ⊢
    have hgrows : before.greatest ≤ (x.run chain first size before).greatest := by
      unfold Session.run
      split
      · exact Int.le_refl _
      · exact Int.le_max_left _ _
    obtain ⟨hlow, f, hbefore', htiled⟩ := ih (by omega)
    have hplace : before.place = .folder f := congrArg History.place hbefore'
    have hfault : before.fault = none := congrArg History.fault hbefore'
    generalize hreached : (before.greatest - first.toInt + 1).toNat = reached at htiled
    -- the tiles do not go beyond what has been reached
    have hmul := Nat.mul_div_le reached size
    have hgreatest := greatest_run hfirst hsize hplace htiled x (by omega)
    obtain ⟨f', hrun, htiled'⟩ := run_tiled hfirst hsize hplace htiled x hchain (by omega)
    refine ⟨by omega, f', by rw [← hfault]; exact hrun, ?_⟩
    -- nor does the session complete other tiles than those of the height that is now the greatest
    have hcount : ((x.run chain first size before).greatest - first.toInt + 1).toNat =
        max reached (size * (reached / size) + x.count) := by omega
    have hmax : max reached (size * (reached / size) + x.count) / size = (size * (reached / size) + x.count) / size := by
      rcases Nat.le_total reached (size * (reached / size) + x.count) with hle | hle
      · rw [Nat.max_eq_right hle]
      · rw [Nat.max_eq_left hle]
        refine Nat.le_antisymm ?_ (Nat.div_le_div_right hle)
        rw [Nat.mul_add_div hsize]
        exact Nat.le_add_right _ _
    rw [hcount, hmax]
    exact htiled'

end

/-! ### What there is and what is read -/

/-- **Any number of interrupted sessions**: nothing fails; apart from what opening discards the folder holds the
complete batches up to the greatest height and nothing else; and a reader hands out the blocks of exactly their
heights, each once, and says of the last one of each batch that it closes it. -/
theorem sessions_tile (hfirst : 1 ≤ first.toInt) (hsize : 1 ≤ size) (hchain : Chained chain first) (xs : List Session)
    (hroom : (sessions chain first size xs).greatest + size < 10 ^ 12) :
    ∃ f q, sessions chain first size xs = ⟨.folder f, (sessions chain first size xs).greatest, none⟩ ∧
      q = ((sessions chain first size xs).greatest - first.toInt + 1).toNat / size ∧
      discard f = tiling chain first size q ∧
      scan (.folder f) = .ok ((List.range q).map (tileBatch first size)) ∧
      ∀ (wanted : Int64) (as : List Archived),
        Yields (Reader.next (.folder f) wanted) (.ofBatches ((List.range q).map (tileBatch first size)) wanted) as ↔
          as = (Node.heights (Checked.larger wanted first) (first - 1 + Int64.ofNat (size * q))).map
            (flagged chain first size) := by
  obtain ⟨hlow, f, hsessions, htiled⟩ := sessions_tiled hfirst hsize hchain xs hroom
  obtain ⟨q, hq⟩ : ∃ q, q = ((sessions chain first size xs).greatest - first.toInt + 1).toNat / size := ⟨_, rfl⟩
  have hmul := Nat.mul_div_le ((sessions chain first size xs).greatest - first.toInt + 1).toNat size
  rw [← hq] at hmul htiled
  have hroom' : first.toInt + (size * q : Nat) ≤ 10 ^ 12 := by omega
  have hbatches : batches f = (List.range q).map (tileBatch first size) := by
    rw [← batches_discard, htiled.discard_eq, batches_tiling hfirst hsize hroom']
  have hfiles : ∀ i < q, f.get? (batchName (tileLast first size i)) = some (tile chain first size i).2 := by
    intro i hi
    have hlast := tileLast_lt hfirst hsize hi hroom'
    rw [← get?_discard f (isOpenName_batchName (by omega) (by omega)), htiled.discard_eq,
      get?_tiling hfirst hsize hroom' hi]
  have hsound : ∀ wanted : Int64, (Reader.ofBatches ((List.range q).map (tileBatch first size)) wanted).Sound
      (fun _ => True) (.folder f) := by
    intro wanted
    refine ⟨.inl rfl, fun b hb => ?_⟩
    obtain ⟨i, hi, rfl⟩ := List.mem_map.1 (List.mem_filter.1 hb).1
    refine ⟨_, hfiles i (List.mem_range.1 hi), readable_text (fun b hb => ?_) fun _ _ => trivial⟩
    rw [stretch_tile] at hb
    obtain ⟨h, hh, rfl⟩ := List.mem_map.1 hb
    have hmul' : size * (i + 1) ≤ size * q := Nat.mul_le_mul_left size (List.mem_range.1 hi)
    obtain ⟨j, -, hheight⟩ := toInt_of_mem_tileHeights hfirst (by omega) hh
    exact hchain.isValid h (by omega)
  refine ⟨f, q, hsessions, hq, htiled.discard_eq, congrArg _ hbatches, fun wanted as => ?_⟩
  have hyields := Reader.yields_ahead wanted (hsound wanted)
  rw [ahead_tiles hfirst hsize hchain hroom' hfiles] at hyields
  exact ⟨fun has => has.unique hyields, fun has => has ▸ hyields⟩

/-- Three sessions from height 3 on with two blocks a batch: the first is cut off within a batch, the second before
its first block, and the third after four of its blocks again within a batch. -/
def interrupted : List Session :=
  [⟨3, .plain "torn", fun _ h => nomatch h⟩, ⟨0, .plain "", fun _ h => nomatch h⟩, ⟨5, .packed "", fun _ h => nomatch h⟩]

theorem sessions_tile_interrupted :
    (sessions ScriptedNode.block 3 2 interrupted).greatest = 9 ∧
      ∃ f, sessions ScriptedNode.block 3 2 interrupted = ⟨.folder f, 9, none⟩ ∧
        discard f = tiling ScriptedNode.block 3 2 3 ∧
        scan (.folder f) = .ok ((List.range 3).map (tileBatch 3 2)) ∧
        ∀ (wanted : Int64) (as : List Archived),
          Yields (Reader.next (.folder f) wanted) (.ofBatches ((List.range 3).map (tileBatch 3 2)) wanted) as ↔
            as = (Node.heights (Checked.larger wanted 3) 8).map (flagged ScriptedNode.block 3 2) := by
  have hgreatest : (sessions ScriptedNode.block 3 2 interrupted).greatest = 9 := by decide +kernel
  have hchain : Chained ScriptedNode.block 3 := ⟨fun _ _ => rfl, fun h _ => ScriptedNode.isValid_block h⟩
  obtain ⟨f, q, hsessions, hq, htiles⟩ :=
    sessions_tile (by decide) (by decide : 1 ≤ 2) hchain interrupted (by rw [hgreatest]; decide)
  rw [hgreatest] at hsessions hq
  obtain rfl : q = 3 := hq
  exact ⟨hgreatest, f, hsessions, htiles⟩

end PoolIndexer.Archive
