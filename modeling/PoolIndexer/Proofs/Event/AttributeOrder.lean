import Mathlib.Data.List.Perm.Basic
import PoolIndexer.Event.Load
import PoolIndexer.Proofs.Basic

/-!
# Proofs.Event.AttributeOrder — events whose attributes come in another order

* `Attributes.Agrees`: the same kind, and the same value under every key.  Reads by key cannot tell two such lists
  apart.
* `txIds_perm`: keys of transaction ids are told by their end.  Where each side has at most one, the order in which
  they are met plays no part.
* `entries_perm`: rewards and slashes keep an entry for each attribute, in the order of the attributes.
* `load_reordered`: what is read, kind by kind, under either order.
-/

namespace PoolIndexer

namespace Attributes

/-! ### Reads by key -/

/-- Nothing that is read by its key differs. -/
structure Agrees (as as' : Attributes) : Prop where
  kind : as'.kind = as.kind
  get? : ∀ key, as'.get? key = as.get? key

theorem get?_eq_some_iff {as : Attributes} (h : (as.pairs.map Prod.fst).Nodup) {key value : String} :
    as.get? key = some value ↔ (key, value) ∈ as.pairs := by
  constructor
  · intro hget
    obtain ⟨front, rest, hpairs, -⟩ := List.lookup_eq_some_iff.1 hget
    rw [hpairs]
    exact List.mem_append_right _ List.mem_cons_self
  · exact lookup_of_mem h

theorem agrees_of_perm (kind : String) {pairs pairs' : List (String × String)} (h : pairs.Perm pairs')
    (hkeys : (pairs.map Prod.fst).Nodup) : Agrees ⟨kind, pairs⟩ ⟨kind, pairs'⟩ where
  kind := rfl
  get? key := by
    have hkeys' : (pairs'.map Prod.fst).Nodup := (h.map Prod.fst).nodup_iff.1 hkeys
    refine Option.ext fun value => ?_
    rw [get?_eq_some_iff hkeys', get?_eq_some_iff hkeys]
    exact h.mem_iff.symm

namespace Agrees

variable {as as' : Attributes} (h : Agrees as as') (key : String)
include h

theorem get : as'.get key = as.get key := by
  unfold Attributes.get
  rw [h.get?, h.kind]

theorem getOrEmpty : as'.getOrEmpty key = as.getOrEmpty key := by
  unfold Attributes.getOrEmpty
  rw [h.get?]

theorem readInt (value : String) : as'.readInt key value = as.readInt key value := by
  unfold Attributes.readInt
  rw [h.kind]

theorem int : as'.int key = as.int key := by
  unfold Attributes.int
  simp only [h.get, h.readInt]

theorem intOrZero : as'.intOrZero key = as.intOrZero key := by
  unfold Attributes.intOrZero
  simp only [h.get?, h.readInt]

theorem bool : as'.bool key = as.bool key := by
  unfold Attributes.bool
  rw [h.get, h.kind]

theorem coin : as'.coin key = as.coin key := by
  unfold Attributes.coin
  rw [h.get, h.kind]

theorem coins : as'.coins key = as.coins key := by
  unfold Attributes.coins
  rw [h.get, h.kind]

theorem firstOf (other : String) : as'.firstOf key other = as.firstOf key other := by
  unfold Attributes.firstOf
  rw [h.get?, h.get?, h.kind]

end Agrees

/-- The keys of all attributes but one, in order. -/
def entryKeys (as : Attributes) (otherKey : String) : List String :=
  (as.pairs.map Prod.fst).filter fun key => key != otherKey

end Attributes

namespace Event

/-! ### The two sides of a deposit -/

inductive DepositSide where
  | rune
  | asset
  deriving DecidableEq

/-- The side whose transaction id stands under a key. -/
def DepositSide.ofKey? (key : String) : Option DepositSide :=
  (stripTail "_txid".toList key.toList).map fun chain =>
    if Asset.sameName (String.ofList chain) "THOR" then .rune else .asset

/-- No side has two transaction ids. -/
def SingleTxIds (pairs : List (String × String)) : Prop :=
  ∀ side, pairs.countP (fun p => DepositSide.ofKey? p.1 = some side) ≤ 1

instance (pairs : List (String × String)) : Decidable (SingleTxIds pairs) :=
  decidable_of_iff (pairs.countP (fun p => DepositSide.ofKey? p.1 = some .rune) ≤ 1 ∧
      pairs.countP (fun p => DepositSide.ofKey? p.1 = some .asset) ≤ 1) <| by
    constructor
    · rintro ⟨hrune, hasset⟩ side
      cases side with
      | rune => exact hrune
      | asset => exact hasset
    · exact fun h => ⟨h .rune, h .asset⟩

theorem SingleTxIds.eq {pairs : List (String × String)} (h : SingleTxIds pairs) {p q : String × String} (hp : p ∈ pairs)
    (hq : q ∈ pairs) {side : DepositSide} (hps : DepositSide.ofKey? p.1 = some side)
    (hqs : DepositSide.ofKey? q.1 = some side) : p = q := by
  have hone := h side
  rw [List.countP_eq_length_filter] at hone
  have hpf : p ∈ pairs.filter fun p => DepositSide.ofKey? p.1 = some side :=
    List.mem_filter.2 ⟨hp, decide_eq_true hps⟩
  have hqf : q ∈ pairs.filter fun p => DepositSide.ofKey? p.1 = some side :=
    List.mem_filter.2 ⟨hq, decide_eq_true hqs⟩
  generalize pairs.filter (fun p => DepositSide.ofKey? p.1 = some side) = found at hone hpf hqf
  match found, hone with
  | [r], _ => exact (List.mem_singleton.1 hpf).trans (List.mem_singleton.1 hqf).symm

/-- A key writes to its own side, or to none. -/
theorem push_cases (p : String × String) :
    (DepositSide.ofKey? p.1 = none ∧ ∀ ids : TxIds, ids.push p = ids) ∨
    (DepositSide.ofKey? p.1 = some .rune ∧ ∀ ids : TxIds, ids.push p = { ids with runeTx := p.2 }) ∨
    ∃ chain, DepositSide.ofKey? p.1 = some .asset ∧
      ∀ ids : TxIds, ids.push p = { ids with assetTx := p.2, assetChain := chain } := by
  unfold TxIds.push DepositSide.ofKey?
  cases stripTail "_txid".toList p.1.toList with
  | none => exact .inl ⟨rfl, fun _ => rfl⟩
  | some chain =>
    dsimp only [Option.map_some]
    cases hside : Asset.sameName (String.ofList chain) "THOR" with
    | true => exact .inr (.inl ⟨rfl, fun _ => rfl⟩)
    | false => exact .inr (.inr ⟨String.ofList chain, rfl, fun _ => rfl⟩)

theorem push_comm {pairs : List (String × String)} (h : SingleTxIds pairs) {p q : String × String} (hp : p ∈ pairs)
    (hq : q ∈ pairs) (ids : TxIds) : (ids.push p).push q = (ids.push q).push p := by
  rcases push_cases p with ⟨-, hpush⟩ | ⟨hps, hpush⟩ | ⟨chain, hps, hpush⟩
  · rw [hpush, hpush]
  · rcases push_cases q with ⟨-, hpush'⟩ | ⟨hqs, -⟩ | ⟨chain, -, hpush'⟩
    · rw [hpush', hpush']
    · rw [h.eq hp hq hps hqs]
    · simp only [hpush, hpush']
  · rcases push_cases q with ⟨-, hpush'⟩ | ⟨-, hpush'⟩ | ⟨chain', hqs, -⟩
    · rw [hpush', hpush']
    · simp only [hpush, hpush']
    · rw [h.eq hp hq hps hqs]

theorem txIds_perm (kind : String) {pairs pairs' : List (String × String)} (hperm : pairs.Perm pairs')
    (h : SingleTxIds pairs) : txIds ⟨kind, pairs'⟩ = txIds ⟨kind, pairs⟩ :=
  (hperm.foldl_eq' (fun _ hp _ hq ids => push_comm h hp hq ids) ⟨"", "", ""⟩).symm

/-! ### Entries -/

section

variable {as : Attributes} {otherKey : String} {found : List (String × Int64)}

theorem entries_eq (as : Attributes) (otherKey : String) : entries as otherKey =
    (as.pairs.filter fun p => p.1 != otherKey).mapM fun p => (as.readInt p.1 p.2).map (Prod.mk p.1) := rfl

/-- The entries stand in the order of their attributes. -/
theorem map_fst_entries (h : entries as otherKey = .ok found) : found.map Prod.fst = as.entryKeys otherKey := by
  rw [entries_eq] at h
  have hkeys : found.map Prod.fst = (as.pairs.filter fun p => p.1 != otherKey).map Prod.fst := by
    refine map_eq_of_mapM (fun p entry hentry => ?_) h
    cases hint : as.readInt p.1 p.2 with
    | error e =>
      rw [hint] at hentry
      cases hentry
    | ok n =>
      rw [hint] at hentry
      cases hentry
      rfl
  rw [hkeys, Attributes.entryKeys, List.filter_map]
  rfl

theorem entries_perm {as' : Attributes} (hkind : as'.kind = as.kind) (hperm : as.pairs.Perm as'.pairs)
    (h : entries as otherKey = .ok found) : ∃ found', entries as' otherKey = .ok found' ∧ found.Perm found' := by
  have hread : as'.readInt = as.readInt := by
    funext key value
    unfold Attributes.readInt
    rw [hkind]
  rw [entries_eq] at h
  rw [entries_eq, hread]
  obtain ⟨found', hfound', hperm'⟩ :=
    List.perm_comp_forall₂ (hperm.filter fun p => p.1 != otherKey).symm (mapM_eq_ok_iff.1 h)
  exact ⟨found', mapM_eq_ok_iff.2 hfound', hperm'.symm⟩

end

/-! ### All kinds -/

/-- Two readings of one event, the attributes of the second in another order: equal, but for the order of what is
kept in the order of the attributes. -/
def Reordered (as as' : Attributes) : Event → Event → Prop
  | .rewards r, .rewards r' =>
    r'.bondE8 = r.bondE8 ∧ r.perPool.Perm r'.perPool ∧ r.perPool.map Prod.fst = as.entryKeys "bond_reward" ∧
      r'.perPool.map Prod.fst = as'.entryKeys "bond_reward"
  | .slash s, .slash s' =>
    s'.pool = s.pool ∧ s.amounts.Perm s'.amounts ∧ s.amounts.map Coin.asset = as.entryKeys "pool" ∧
      s'.amounts.map Coin.asset = as'.entryKeys "pool"
  | e, e' => e' = e

/-- What becomes of one event under two orders of its attributes.  Which attribute is at fault may differ, since
entries are read in their order; whether arithmetic is at fault may not. -/
inductive Alike (as as' : Attributes) : Except LoadError (Option Event) → Except LoadError (Option Event) → Prop where
  | recorded {e e' : Event} (h : Reordered as as' e e') : Alike as as' (.ok (some e)) (.ok (some e'))
  | notRecorded : Alike as as' (.ok none) (.ok none)
  | malformed (e e' : AttributeError) : Alike as as' (.error (.attribute e)) (.error (.attribute e'))
  | overflow (o : Overflow) : Alike as as' (.error (.overflow o)) (.error (.overflow o))

section

variable {α : Type} {natives : NativeNames} {as as' : Attributes} {wrap : α → Event}

theorem alike_reading {x x' : Except AttributeError α}
    (h : ∀ a, x = .ok a → ∃ a', x' = .ok a' ∧ Reordered as as' (wrap a) (wrap a'))
    (h' : ∀ a', x' = .ok a' → ∃ a, x = .ok a) : Alike as as' (reading wrap x) (reading wrap x') := by
  cases x with
  | ok a =>
    obtain ⟨a', rfl, hreordered⟩ := h a rfl
    exact .recorded hreordered
  | error e =>
    cases x' with
    | error e' => exact .malformed e e'
    | ok a' =>
      obtain ⟨a, ha⟩ := h' a' rfl
      cases ha

theorem alike_checking_eq {x x' : Except LoadError α} (hwrap : ∀ a, Reordered as as' (wrap a) (wrap a))
    (h : x' = x) : Alike as as' (checking wrap x) (checking wrap x') := by
  subst h
  rcases x' with (e | o) | a
  · exact .malformed e e
  · exact .overflow o
  · exact .recorded (hwrap a)

theorem alike_reading_eq {x x' : Except AttributeError α} (hwrap : ∀ a, Reordered as as' (wrap a) (wrap a))
    (h : x' = x) : Alike as as' (reading wrap x) (reading wrap x') := by
  rw [reading_eq_checking, reading_eq_checking]
  exact alike_checking_eq hwrap (congrArg _ h)

variable (h : as.Agrees as') (hperm : as.pairs.Perm as'.pairs)
include h hperm

theorem loadRewards_perm {r : Rewards} (hr : loadRewards as = .ok r) :
    ∃ r', loadRewards as' = .ok r' ∧ Reordered as as' (.rewards r) (.rewards r') := by
  obtain ⟨perPool, hentries, hr⟩ := bind_eq_ok_iff.1 hr
  obtain ⟨bondE8, hbond, ⟨⟩⟩ := bind_eq_ok_iff.1 hr
  obtain ⟨perPool', hentries', hpermuted⟩ := entries_perm h.kind hperm hentries
  refine ⟨⟨bondE8, perPool'⟩, ?_, rfl, hpermuted, map_fst_entries hentries, map_fst_entries hentries'⟩
  exact bind_eq_ok_iff.2 ⟨perPool', hentries', bind_eq_ok_iff.2 ⟨bondE8, (h.intOrZero _).trans hbond, rfl⟩⟩

theorem loadSlash_perm {s : Slash} (hs : loadSlash as = .ok s) :
    ∃ s', loadSlash as' = .ok s' ∧ Reordered as as' (.slash s) (.slash s') := by
  obtain ⟨amounts, hentries, hs⟩ := bind_eq_ok_iff.1 hs
  obtain ⟨pool, hpool, ⟨⟩⟩ := bind_eq_ok_iff.1 hs
  obtain ⟨amounts', hentries', hpermuted⟩ := entries_perm h.kind hperm hentries
  refine ⟨⟨pool, amounts'.map fun e => ⟨e.1, e.2⟩⟩, ?_, rfl, hpermuted.map _, ?_, ?_⟩
  · exact bind_eq_ok_iff.2 ⟨amounts', hentries', bind_eq_ok_iff.2 ⟨pool, (h.get _).trans hpool, rfl⟩⟩
  · rw [List.map_map]
    exact map_fst_entries hentries
  · rw [List.map_map]
    exact map_fst_entries hentries'

/-- Deposits and the two kinds with entries apart, every kind reads by key only. -/
theorem load_alike (hdeposit : as.kind = "add_liquidity" ∨ as.kind = "pending_liquidity" → txIds as' = txIds as) :
    Alike as as' (load natives as) (load natives as') := by
  have hback : as'.Agrees as := ⟨h.kind.symm, fun key => (h.get? key).symm⟩
  unfold load
  rw [h.kind]
  split
  case h_1 =>
    refine alike_checking_eq (fun _ => rfl) ?_
    simp only [loadAdd, inboundCoins, inbound, h.get?, h.get, h.getOrEmpty, h.coins]
  case h_2 hkind =>
    refine alike_reading_eq (fun _ => rfl) ?_
    simp only [loadAddLiquidity, loadDeposit, hdeposit (.inl hkind), h.get, h.getOrEmpty, h.int, h.intOrZero]
  case h_3 hkind =>
    refine alike_reading_eq (fun _ => rfl) ?_
    simp only [loadPending, loadDeposit, hdeposit (.inr hkind), h.get, h.getOrEmpty, h.intOrZero]
  case h_10 =>
    refine alike_checking_eq (fun _ => rfl) ?_
    simp only [loadErrata, signed, h.get?, h.get, h.getOrEmpty, h.intOrZero, h.bool]
  case h_11 =>
    refine alike_checking_eq (fun _ => rfl) ?_
    simp only [loadBalanceChange, signed, h.get?, h.get, h.getOrEmpty, h.intOrZero, h.bool]
  case h_13 =>
    exact alike_reading (fun _ => loadRewards_perm h hperm) fun _ hr =>
      (loadRewards_perm hback hperm.symm hr).imp fun _ => And.left
  case h_14 =>
    exact alike_reading (fun _ => loadSlash_perm h hperm) fun _ hs =>
      (loadSlash_perm hback hperm.symm hs).imp fun _ => And.left
  case h_29 => exact .notRecorded
  all_goals
    refine alike_reading_eq (fun _ => rfl) ?_
    simp only [inboundCoins, inbound, loadWithdraw, loadSwap, loadFee, loadGas, loadRefund, loadOutbound, loadPool,
      loadReserve, loadBond, loadNodeStatus, loadNodeKeys, loadNodeVersion, loadLeaveRequest, loadTransfer, loadSwitch,
      loadLoanOpen, loadLoanRepayment, loadMintBurn, loadMimir, h.kind, h.get?, h.get, h.getOrEmpty, h.int,
      h.intOrZero, h.coin, h.coins, h.firstOf]

end

/-- **Order of attributes**: it decides nothing but the order of the entries of rewards and slashes. -/
theorem load_reordered (natives : NativeNames) (kind : String) {pairs pairs' : List (String × String)}
    (hperm : pairs.Perm pairs') (hkeys : (pairs.map Prod.fst).Nodup)
    (htxids : kind = "add_liquidity" ∨ kind = "pending_liquidity" → SingleTxIds pairs) :
    Alike ⟨kind, pairs⟩ ⟨kind, pairs'⟩ (load natives ⟨kind, pairs⟩) (load natives ⟨kind, pairs'⟩) :=
  load_alike (Attributes.agrees_of_perm kind hperm hkeys) hperm fun hkind => txIds_perm kind hperm (htxids hkind)

/-- The entries of rewards stand as their attributes do. -/
example : load NativeNames.default ⟨"rewards", [("ETH.ETH", "3"), ("bond_reward", "2"), ("BTC.BTC", "1")]⟩ =
    .ok (some (.rewards ⟨2, [("ETH.ETH", 3), ("BTC.BTC", 1)]⟩)) := by rfl

/-- An addition on two sides, read from its last attribute to its first. -/
theorem load_reversed_deposit :
    let pairs := [("pool", "BTC.BTC"), ("thor_txid", "A1"), ("liquidity_provider_units", "7"), ("BTC_txid", "B2")]
    SingleTxIds pairs ∧ (pairs.map Prod.fst).Nodup ∧
      load NativeNames.default ⟨"add_liquidity", pairs⟩ =
        .ok (some (.addLiquidity ⟨⟨"BTC.BTC", "B2", "BTC", "", 0, "A1", "", 0⟩, 7⟩)) ∧
      Alike ⟨"add_liquidity", pairs⟩ ⟨"add_liquidity", pairs.reverse⟩
        (load NativeNames.default ⟨"add_liquidity", pairs⟩)
        (load NativeNames.default ⟨"add_liquidity", pairs.reverse⟩) := by
  intro pairs
  have hone : SingleTxIds pairs := by decide +kernel
  have hkeys : (pairs.map Prod.fst).Nodup := by decide +kernel
  exact ⟨hone, hkeys, by rfl,
    load_reordered NativeNames.default "add_liquidity" pairs.reverse_perm.symm hkeys fun _ => hone⟩

end Event

end PoolIndexer
