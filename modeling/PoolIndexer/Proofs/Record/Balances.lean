import Mathlib.Data.List.Forall2
import PoolIndexer.Record.Changes

/-!
# Proofs.Record.Balances — the three ledgers, posted to by exact amounts

A posting adds an integer to one ledger of a pool, or sets all three.  An addition whose sum does not
fit into 64 bits leaves the ledger as it was.  The changes that an event plans are postings as long
as all of them can be computed.
-/

namespace PoolIndexer

/-- The depths of every pool, without the count of refused deltas. -/
structure Balances where
  asset : Ledger
  rune : Ledger
  synth : Ledger
  deriving DecidableEq

inductive Posting where
  | add (name : LedgerName) (pool : String) (delta : Int)
  | set (pool : String) (depths : Depths)

namespace Balances

def empty : Balances := ⟨.empty, .empty, .empty⟩

def ledger (b : Balances) : LedgerName → Ledger
  | .asset => b.asset
  | .rune => b.rune
  | .synth => b.synth

def withLedger (b : Balances) (name : LedgerName) (l : Ledger) : Balances :=
  match name with
  | .asset => { b with asset := l }
  | .rune => { b with rune := l }
  | .synth => { b with synth := l }

/-- Adds the exact amount, or nothing if the sum does not fit. -/
def add (b : Balances) (name : LedgerName) (pool : String) (delta : Int) : Balances :=
  match Checked.fit? (((b.ledger name).get pool).toInt + delta) with
  | some sum => b.withLedger name ((b.ledger name).insert pool sum)
  | none => b

def post (b : Balances) : Posting → Balances
  | .add name pool delta => b.add name pool delta
  | .set pool d =>
    ⟨b.asset.insert pool d.assetE8, b.rune.insert pool d.runeE8, b.synth.insert pool d.synthE8⟩

def postAll (b : Balances) (ps : List Posting) : Balances := ps.foldl post b

/-- Totals that have refused nothing yet. -/
def totals (b : Balances) : Totals := ⟨b.asset, b.rune, b.synth, 0⟩

theorem postAll_append (b : Balances) (ps qs : List Posting) :
    b.postAll (ps ++ qs) = (b.postAll ps).postAll qs :=
  List.foldl_append

end Balances

namespace Totals

def balances (t : Totals) : Balances := ⟨t.asset, t.rune, t.synth⟩

theorem ledger_balances (t : Totals) (name : LedgerName) :
    t.balances.ledger name = t.ledger name := by
  cases name <;> rfl

theorem balances_withLedger (t : Totals) (name : LedgerName) (l : Ledger) :
    (t.withLedger name l).balances = t.balances.withLedger name l := by
  cases name <;> rfl

end Totals

namespace Totals

/-- Posts an exact amount; a sum that does not fit is refused and counted. -/
def post (t : Totals) : Posting → Totals
  | .add name pool delta =>
    match Checked.fit? (((t.ledger name).get pool).toInt + delta) with
    | some sum => t.withLedger name ((t.ledger name).insert pool sum)
    | none => { t with overflows := t.overflows + 1 }
  | .set pool d => t.set pool d

def postAll (t : Totals) (ps : List Posting) : Totals := ps.foldl post t

theorem balances_post (t : Totals) (p : Posting) : (t.post p).balances = t.balances.post p := by
  cases p with
  | set pool d => rfl
  | add name pool delta =>
    show (t.post (.add name pool delta)).balances = t.balances.add name pool delta
    unfold post Balances.add
    rw [ledger_balances]
    dsimp only
    cases Checked.fit? (((t.ledger name).get pool).toInt + delta) with
    | some sum => exact balances_withLedger t name _
    | none => rfl

theorem balances_postAll (t : Totals) (ps : List Posting) :
    (t.postAll ps).balances = t.balances.postAll ps := by
  induction ps generalizing t with
  | nil => rfl
  | cons p rest ih =>
    show ((t.post p).postAll rest).balances = (t.balances.post p).postAll rest
    rw [ih, balances_post]

end Totals

/-! ### Changes as postings -/

namespace Ledger

theorem add?_eq (l : Ledger) (pool : String) (delta : Int64) :
    l.add? pool delta = (Checked.fit? ((l.get pool).toInt + delta.toInt)).map (l.insert pool) := by
  unfold add? get
  cases l.get? pool with
  | some amount => rfl
  | none =>
    have hzero : ((none : Option Int64).getD 0).toInt + delta.toInt = delta.toInt := by
      simp
    rw [hzero, Checked.fit?_toInt]
    rfl

end Ledger

def Totals.Change.posting : Totals.Change → Posting
  | .add name pool delta => .add name pool delta.toInt
  | .set pool d => .set pool d

theorem Totals.apply_eq_post (t : Totals) (c : Change) : t.apply c = t.post c.posting := by
  cases c with
  | set pool d => rfl
  | add name pool delta =>
    show t.add name pool delta = t.post (.add name pool delta.toInt)
    unfold Totals.add post
    rw [Ledger.add?_eq]
    dsimp only
    cases Checked.fit? (((t.ledger name).get pool).toInt + delta.toInt) <;> rfl

/-- A planned change is computed as that posting, if it can be computed. -/
def PlannedChange.Posts (planned : PlannedChange) (p : Posting) : Prop :=
  ∀ c, planned = .ok c → c.posting = p

namespace PlannedChange

theorem posts_inflow (name : LedgerName) (pool : String) (amount : Int64) :
    (inflow name pool amount).Posts (.add name pool amount.toInt) := by
  rintro _ ⟨⟩
  rfl

theorem posts_outflow (name : LedgerName) (pool : String) (amount : Int64) :
    (outflow name pool amount).Posts (.add name pool (-amount.toInt)) := by
  intro c hc
  unfold outflow at hc
  cases hneg : Checked.neg amount with
  | error o =>
    rw [hneg] at hc
    cases hc
  | ok delta =>
    rw [hneg] at hc
    cases hc
    exact congrArg (Posting.add name pool) (Checked.neg_eq_ok_iff.1 hneg)

theorem posts_reset (pool : String) (d : Depths) : (reset pool d).Posts (.set pool d) := by
  rintro _ ⟨⟩
  rfl

end PlannedChange

namespace Totals

/-- Changes that can all be computed are posted in their order. -/
theorem totals_applyAll (t : Totals) {planned : List PlannedChange} {ps : List Posting}
    (h : List.Forall₂ PlannedChange.Posts planned ps) (hfault : (t.applyAll planned).fault = none) :
    (t.applyAll planned).totals = t.postAll ps := by
  induction h generalizing t with
  | nil => rfl
  | @cons planned p rest ps hp hrest ih =>
    cases planned with
    | error o => cases hfault
    | ok c =>
      have hc : c.posting = p := hp c rfl
      calc ((t.apply c).applyAll rest).totals
          = (t.apply c).postAll ps := ih (t.apply c) hfault
        _ = (t.post p).postAll ps := by rw [apply_eq_post, hc]

end Totals

namespace Balances

/-- Posts planned changes; the first that cannot be computed is a fault. -/
def applyAll (b : Balances) : List PlannedChange → Except Overflow Balances
  | [] => .ok b
  | .error o :: _ => .error o
  | .ok c :: rest => (b.post c.posting).applyAll rest

end Balances

namespace Totals

theorem applyAll_balances (planned : List PlannedChange) :
    ∀ t : Totals, t.balances.applyAll planned =
      match (t.applyAll planned).fault with
      | some o => .error o
      | none => .ok (t.applyAll planned).totals.balances := by
  induction planned with
  | nil => exact fun _ => rfl
  | cons p rest ih =>
    intro t
    cases p with
    | error o => rfl
    | ok c =>
      show (t.balances.post c.posting).applyAll rest = _
      rw [← balances_post, ← apply_eq_post, ih (t.apply c)]
      rfl

end Totals

end PoolIndexer
